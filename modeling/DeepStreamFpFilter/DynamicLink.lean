import DeepStreamFpFilter.Gst

/-! The splice API of `ds_dynamic_link_unlink_element.c`. `add_element_to_pipeline` and
`remove_element_from_pipeline` arm a blocking probe, with a copy of the descriptor, on the
`src` pad of `main_prev_prev_element`; the probe callbacks make the change on the streaming
thread when an item reaches that pad. A callback is a function of its descriptor copy, the
pad it sits on and the splice state (the pipeline and the armed probes), and says what it
returns to the pad and where it sent an EOS. `fireProbes` runs the probes of a pad on one
item as GStreamer does: in arming order, until one drops the item. -/

namespace DeepStreamFpFilter.DynamicLink

open Gst

structure LinkUnlinkInfo where
  mainElement : Elem
  mainPrevElement : Elem
  mainPrevPrevElement : Elem
  mainNextElement : Elem
  deriving DecidableEq, Repr

inductive Probe where
  /-- `add_elem_probe_cb`, armed `GST_PAD_PROBE_TYPE_BLOCK_DOWNSTREAM` -/
  | addElem (info : LinkUnlinkInfo)
  /-- `pad_probe_cb`, armed `GST_PAD_PROBE_TYPE_BLOCK_DOWNSTREAM` -/
  | padProbe (info : LinkUnlinkInfo)
  /-- `remove_elem_probe_cb`, armed
  `GST_PAD_PROBE_TYPE_BLOCK | GST_PAD_PROBE_TYPE_EVENT_DOWNSTREAM` -/
  | removeElem (info : LinkUnlinkInfo)
  deriving DecidableEq, Repr

def Probe.removes : Probe → Bool
  | .addElem _ => false
  | _ => true

inductive ItemKind where
  | buffer
  | event
  | eos
  deriving DecidableEq, Repr

/-- Whether a probe's type mask lets it see an item: the EOS probe sees events only. -/
def Probe.sees : Probe → ItemKind → Bool
  | .removeElem _, .buffer => false
  | _, _ => true

inductive PadProbeReturn where
  | drop
  | ok
  | pass
  deriving DecidableEq, Repr

structure Splice where
  pipeline : Pipeline
  probes : List (Elem × Probe)

structure ProbeResult where
  splice : Splice
  ret : PadProbeReturn
  eosTo : Option Elem

namespace Splice

variable (s : Splice)

def probesOn (pad : Elem) : List Probe := (s.probes.filter (·.1 == pad)).map Prod.snd

@[simps]
def addProbe (pad : Elem) (probe : Probe) : Splice :=
  { s with probes := s.probes ++ [(pad, probe)] }

@[simps]
def removeProbe (pad : Elem) (probe : Probe) : Splice :=
  { s with probes := s.probes.erase (pad, probe) }

/-- The armed `add_elem_probe_cb` probes. -/
def armedAdds : List (Elem × Probe) := s.probes.filter (!·.2.removes)

variable {s}

@[simp] theorem armedAdds_addProbe (pad : Elem) (probe : Probe) :
    (s.addProbe pad probe).armedAdds.length =
      s.armedAdds.length + if probe.removes then 0 else 1 := by
  cases removes : probe.removes <;> simp [armedAdds, removes]

theorem mem_probesOn {pad : Elem} {probe : Probe} :
    probe ∈ s.probesOn pad ↔ (pad, probe) ∈ s.probes := by
  simp only [probesOn, List.mem_map, List.mem_filter, beq_iff_eq, Prod.exists]
  constructor
  · rintro ⟨_, _, ⟨mem, rfl⟩, rfl⟩
    exact mem
  · exact fun mem => ⟨_, _, ⟨mem, rfl⟩, rfl⟩

end Splice

/-- `add_elem_probe_cb` on the `src` pad of `pad`. Its `return FALSE` is
`GST_PAD_PROBE_DROP`. -/
def addElemProbeCb (f : Faults) (info : LinkUnlinkInfo) (pad : Elem) (s : Splice) :
    ProbeResult :=
  let s := s.removeProbe pad (.addElem info)
  let s := { s with pipeline := (s.pipeline.binAdd f info.mainElement).getD s.pipeline }
  if f.missingPad info.mainPrevElement || f.missingPad info.mainNextElement then
    ⟨s, .drop, none⟩
  else
    match s.pipeline.padUnlink f info.mainPrevElement info.mainNextElement with
    | none => ⟨s, .drop, none⟩
    | some p =>
      let p := (elementLinkMany f p
        [info.mainPrevElement, info.mainElement, info.mainNextElement]).1
      ⟨{ s with pipeline := p.setState info.mainElement .playing }, .drop, none⟩

/-- `remove_elem_probe_cb` on the `src` pad of `pad`. -/
def removeElemProbeCb (f : Faults) (info : LinkUnlinkInfo) (pad : Elem) (item : ItemKind)
    (s : Splice) : ProbeResult :=
  if item ≠ .eos then ⟨s, .pass, none⟩
  else
    let s := s.removeProbe pad (.removeElem info)
    let p := s.pipeline.setState info.mainElement .null
    let p := (p.binRemove info.mainElement).getD p
    ⟨{ s with pipeline := (elementLinkMany f p [info.mainPrevElement, info.mainNextElement]).1 },
      .drop, none⟩

/-- `pad_probe_cb` on the `src` pad of `pad`: arm `remove_elem_probe_cb` on the `src` pad of
`main_element` and send an EOS into its `sink` pad. -/
def padProbeCb (f : Faults) (info : LinkUnlinkInfo) (pad : Elem) (s : Splice) : ProbeResult :=
  let s := s.removeProbe pad (.padProbe info)
  if f.missingPad info.mainElement then ⟨s, .ok, none⟩
  else ⟨s.addProbe info.mainElement (.removeElem info), .ok, some info.mainElement⟩

/-- The body `add_element_to_pipeline` and `remove_element_from_pipeline` share: arm a
`GST_PAD_PROBE_TYPE_BLOCK_DOWNSTREAM` probe with a copy of the descriptor on the `src` pad
of `main_prev_prev_element`. -/
def armBlockProbe (callback : LinkUnlinkInfo → Probe) (f : Faults) (info : LinkUnlinkInfo)
    (s : Splice) : Splice × Bool :=
  if f.missingPad info.mainPrevPrevElement then (s, false)
  else (s.addProbe info.mainPrevPrevElement (callback info), true)

def addElementToPipeline : Faults → LinkUnlinkInfo → Splice → Splice × Bool :=
  armBlockProbe .addElem

def removeElementFromPipeline : Faults → LinkUnlinkInfo → Splice → Splice × Bool :=
  armBlockProbe .padProbe

def callProbe (f : Faults) (pad : Elem) (item : ItemKind) : Probe → Splice → ProbeResult
  | .addElem info => addElemProbeCb f info pad
  | .padProbe info => padProbeCb f info pad
  | .removeElem info => removeElemProbeCb f info pad item

theorem addElemProbeCb_drops (f : Faults) (info : LinkUnlinkInfo) (pad : Elem) (s : Splice) :
    (addElemProbeCb f info pad s).ret = .drop ∧ (addElemProbeCb f info pad s).eosTo = none ∧
      (addElemProbeCb f info pad s).splice.probes = s.probes.erase (pad, .addElem info) := by
  unfold addElemProbeCb
  dsimp only
  split
  · exact ⟨rfl, rfl, rfl⟩
  · split <;> exact ⟨rfl, rfl, rfl⟩

theorem callProbe_adds (f : Faults) (pad : Elem) (item : ItemKind) (s : Splice) :
    ∀ probe : Probe, probe.removes = false → (pad, probe) ∈ s.probes →
      (callProbe f pad item probe s).ret = .drop ∧ (callProbe f pad item probe s).eosTo = none ∧
        (callProbe f pad item probe s).splice.armedAdds.length + 1 = s.armedAdds.length
  | .addElem info, _, mem => by
    obtain ⟨drop, eos, probes⟩ := addElemProbeCb_drops f info pad s
    have armed : (pad, Probe.addElem info) ∈ s.armedAdds := List.mem_filter.2 ⟨mem, rfl⟩
    have positive := List.length_pos_of_mem armed
    have erased : (addElemProbeCb f info pad s).splice.armedAdds =
        s.armedAdds.erase (pad, .addElem info) := by
      rw [Splice.armedAdds, probes, ← List.erase_filter]
      rfl
    refine ⟨drop, eos, ?_⟩
    rw [callProbe, erased, List.length_erase_of_mem armed]
    omega

theorem callProbe_removes (f : Faults) (pad : Elem) (item : ItemKind) (s : Splice) :
    ∀ probe : Probe, probe.removes →
      (callProbe f pad item probe s).splice.armedAdds = s.armedAdds ∧
        ((callProbe f pad item probe s).ret = .drop → item = .eos)
  | .padProbe info, _ => by
    simp only [callProbe, padProbeCb]
    split <;> simp [Splice.armedAdds, ← List.erase_filter, Probe.removes]
  | .removeElem info, _ => by
    by_cases eos : item = .eos <;>
      simp [callProbe, removeElemProbeCb, eos, Splice.armedAdds, ← List.erase_filter,
        Probe.removes]

section Firing

variable {σ : Type} (splice : σ → Splice) (setSplice : σ → Splice → σ)
  (sendEos : Elem → σ → σ)

/-- The probes of the `src` pad of `pad`, taken when `item` reaches it, run in arming order
on a state `σ` that holds the splice, each callback's EOS handed to `sendEos`, until one drops
the item; with whether it was dropped. -/
def fireProbes (f : Faults) (pad : Elem) (item : ItemKind) : List Probe → σ → σ × Bool
  | [], x => (x, false)
  | probe :: rest, x =>
    if probe.sees item then
      let r := callProbe f pad item probe (splice x)
      let x := setSplice x r.splice
      let x := match r.eosTo with
        | some bin => sendEos bin x
        | none => x
      if r.ret = .drop then (x, true) else fireProbes f pad item rest x
    else fireProbes f pad item rest x

theorem fireProbes_preserves (P : σ → Prop) (splices : ∀ x s, P x → P (setSplice x s))
    (sends : ∀ bin x, P x → P (sendEos bin x)) (f : Faults) (pad : Elem) (item : ItemKind) :
    ∀ probes x, P x → P (fireProbes splice setSplice sendEos f pad item probes x).1
  | [], _, kept => kept
  | probe :: rest, x, kept => by
    have called : P (match (callProbe f pad item probe (splice x)).eosTo with
        | some bin => sendEos bin (setSplice x (callProbe f pad item probe (splice x)).splice)
        | none => setSplice x (callProbe f pad item probe (splice x)).splice) := by
      split
      · exact sends _ _ (splices _ _ kept)
      · exact splices _ _ kept
    simp only [fireProbes]
    split
    · split
      · exact called
      · exact fireProbes_preserves P splices sends f pad item rest _ called
    · exact fireProbes_preserves P splices sends f pad item rest x kept

def afterProbe (x : σ) (r : ProbeResult) : σ :=
  match r.eosTo with
  | some bin => sendEos bin (setSplice x r.splice)
  | none => setSplice x r.splice

theorem fireProbes_cons (f : Faults) (pad : Elem) (item : ItemKind) (probe : Probe)
    (rest : List Probe) (x : σ) :
    fireProbes splice setSplice sendEos f pad item (probe :: rest) x =
      if probe.sees item then
        if (callProbe f pad item probe (splice x)).ret = .drop then
          (afterProbe setSplice sendEos x (callProbe f pad item probe (splice x)), true)
        else fireProbes splice setSplice sendEos f pad item rest
          (afterProbe setSplice sendEos x (callProbe f pad item probe (splice x)))
      else fireProbes splice setSplice sendEos f pad item rest x :=
  rfl

theorem fireProbes_induction (P : σ → Prop) (f : Faults) (pad : Elem) (item : ItemKind) :
    ∀ probes : List Probe, (∀ probe ∈ probes, probe.sees item → ∀ x, P x →
      P (afterProbe setSplice sendEos x (callProbe f pad item probe (splice x)))) →
      ∀ x, P x → P (fireProbes splice setSplice sendEos f pad item probes x).1
  | [], _, _, kept => kept
  | probe :: rest, called, x, kept => by
    have later := fireProbes_induction P f pad item rest
      fun other mem => called other (List.mem_cons_of_mem _ mem)
    simp only [fireProbes]
    split
    · next seen =>
      have once := called probe (List.mem_cons_self _ _) seen x kept
      split
      · exact once
      · exact later _ once
    · exact later x kept

theorem fireProbes_removeElem (same : ∀ x, setSplice x (splice x) = x) (f : Faults)
    (info : LinkUnlinkInfo) (pad : Elem) (item : ItemKind) :
    ∀ probes : List Probe, (∀ probe ∈ probes, probe = .removeElem info) → ∀ x,
      fireProbes splice setSplice sendEos f pad item probes x =
        if item = .eos ∧ probes ≠ [] then
          (setSplice x (removeElemProbeCb f info pad .eos (splice x)).splice, true)
        else (x, false)
  | [], _, x => by simp [fireProbes]
  | probe :: rest, only, x => by
    obtain rfl := only probe (List.mem_cons_self _ _)
    have later := fireProbes_removeElem same f info pad item rest
      (fun other mem => only other (List.mem_cons_of_mem _ mem)) x
    cases item <;> simp_all [fireProbes, Probe.sees, callProbe, removeElemProbeCb]

end Firing

/-- `main_prev_element -> main_element -> main_next_element`, the element in the pipeline
and PLAYING. -/
def Spliced (info : LinkUnlinkInfo) (p : Pipeline) : Prop :=
  info.mainElement ∈ p.children ∧ p.state info.mainElement = .playing ∧
    p.Linked info.mainPrevElement info.mainElement ∧
    p.Linked info.mainElement info.mainNextElement

instance (info : LinkUnlinkInfo) (p : Pipeline) : Decidable (Spliced info p) :=
  inferInstanceAs (Decidable (_ ∧ _ ∧ _ ∧ _))

/-- `main_prev_element -> main_next_element`, the element out of the pipeline. -/
def Bypassed (info : LinkUnlinkInfo) (p : Pipeline) : Prop :=
  info.mainElement ∉ p.children ∧ p.Linked info.mainPrevElement info.mainNextElement

instance (info : LinkUnlinkInfo) (p : Pipeline) : Decidable (Bypassed info p) :=
  inferInstanceAs (Decidable (_ ∧ _))

section Faithful

variable {info : LinkUnlinkInfo} {s : Splice}

theorem addElemProbeCb_bypassed (pad : Elem) (bypassed : Bypassed info s.pipeline)
    (fresh : ∀ x ∈ s.pipeline.children, x.name ≠ info.mainElement.name) :
    let r := addElemProbeCb Faults.none info pad s
    r.ret = .drop ∧ r.eosTo = none ∧ r.splice.probes = s.probes.erase (pad, .addElem info) ∧
      r.splice.pipeline.children = info.mainElement :: s.pipeline.children ∧
      Spliced info r.splice.pipeline := by
  obtain ⟨absent, linked⟩ := bypassed
  obtain ⟨prev_mem, next_mem⟩ := linked.children
  have prev_ne : info.mainPrevElement ≠ info.mainElement := fun same => absent (same ▸ prev_mem)
  have next_ne : info.mainElement ≠ info.mainNextElement := fun same => absent (same ▸ next_mem)
  have absent_links := Pipeline.unlinked_of_not_mem absent
  set added := s.pipeline.addChild info.mainElement absent
  set unlinked := added.unlink info.mainPrevElement info.mainNextElement
  have free := Pipeline.Linked.unlink_free
    (show added.Linked info.mainPrevElement info.mainNextElement from linked)
  have first : unlinked.CanLink info.mainPrevElement info.mainElement :=
    ⟨List.mem_cons_of_mem _ prev_mem, List.mem_cons_self _ _, free.1,
      fun mem => absent_links.2 (List.Sublist.subset ((List.erase_sublist _ _).map _) mem)⟩
  have second : (unlinked.link _ _ first).CanLink info.mainElement info.mainNextElement := by
    refine ⟨List.mem_cons_self _ _, List.mem_cons_of_mem _ next_mem, ?_, ?_⟩
    · simp only [Pipeline.link_links, List.map_cons, List.mem_cons, not_or]
      exact ⟨prev_ne.symm,
        fun mem => absent_links.1 (List.Sublist.subset ((List.erase_sublist _ _).map _) mem)⟩
    · simpa [next_ne.symm] using free.2
  simp only [addElemProbeCb, Splice.removeProbe_pipeline,
    s.pipeline.binAdd_of_fresh Faults.none rfl fresh, Option.getD_some, Faults.none_missingPad,
    Bool.or_false, Bool.false_eq_true, ↓reduceIte,
    added.padUnlink_of_linked Faults.none rfl linked, elementLinkMany,
    unlinked.elementLink_of_canLink Faults.none rfl first,
    (unlinked.link _ _ first).elementLink_of_canLink Faults.none rfl second]
  refine ⟨trivial, trivial, rfl, rfl, List.mem_cons_self _ _, by simp, ?_, ?_⟩ <;>
    simp [Pipeline.Linked]

theorem addElemProbeCb_name_taken (pad : Elem)
    (taken : ∃ x ∈ s.pipeline.children, x.name = info.mainElement.name)
    (apart : ¬ s.pipeline.Linked info.mainPrevElement info.mainNextElement) :
    addElemProbeCb Faults.none info pad s = ⟨s.removeProbe pad (.addElem info), .drop, none⟩ := by
  obtain ⟨x, mem, same⟩ := taken
  have refused : (s.pipeline.binAdd Faults.none info.mainElement).getD s.pipeline = s.pipeline := by
    rcases s.pipeline.binAdd_getD Faults.none info.mainElement with kept | ⟨-, -, fresh⟩
    · exact kept
    · exact absurd same (fresh x mem)
  simp only [addElemProbeCb, Splice.removeProbe_pipeline, refused, Faults.none_missingPad,
    Bool.or_false, Bool.false_eq_true, ↓reduceIte, Pipeline.padUnlink_of_not_linked _ apart]
  rfl

theorem addElemProbeCb_state (f : Faults) (pad : Elem) {e : Elem} (apart : e ≠ info.mainElement) :
    (addElemProbeCb f info pad s).splice.pipeline.state e = s.pipeline.state e := by
  have added : ((s.pipeline.binAdd f info.mainElement).getD s.pipeline).state =
      s.pipeline.state := by
    rcases s.pipeline.binAdd_getD f info.mainElement with kept | ⟨_, added, -⟩
    · rw [kept]
    · rw [added]; rfl
  unfold addElemProbeCb
  dsimp only
  split
  · exact congrFun added e
  · split
    · exact congrFun added e
    · next p unlinked =>
      unfold Pipeline.padUnlink at unlinked
      split at unlinked
      · obtain rfl := Option.some.inj unlinked
        simp [apart, (elementLinkMany_frame _ _ _).2.1, ← added]
      · cases unlinked

theorem removeElemProbeCb_spliced (pad : Elem)
    (apart : info.mainPrevElement ≠ info.mainElement ∧
      info.mainElement ≠ info.mainNextElement)
    (spliced : Spliced info s.pipeline) :
    let r := removeElemProbeCb Faults.none info pad .eos s
    r.ret = .drop ∧ r.eosTo = none ∧
      r.splice.probes = s.probes.erase (pad, .removeElem info) ∧
      r.splice.pipeline.children = s.pipeline.children.erase info.mainElement ∧
      Bypassed info r.splice.pipeline := by
  obtain ⟨mem, -, before, after⟩ := spliced
  set stopped := s.pipeline.setState info.mainElement .null
  set removed := stopped.removeChild info.mainElement
  have free : removed.CanLink info.mainPrevElement info.mainNextElement := by
    refine ⟨(List.mem_erase_of_ne apart.1).2 before.children.1,
      (List.mem_erase_of_ne apart.2.symm).2 after.children.2, ?_, ?_⟩ <;>
    simp only [removed, stopped, Pipeline.removeChild_links, Pipeline.setState_links, List.mem_map,
      List.mem_filter, decide_eq_true_eq, not_exists, not_and, Prod.forall]
    · exact fun a b ⟨linked, _, skip⟩ first => by
        subst first; exact skip (before.src_unique linked)
    · exact fun a b ⟨linked, skip, _⟩ second => by
        subst second; exact skip (after.sink_unique linked)
  simp only [removeElemProbeCb, ne_eq, not_true_eq_false, ↓reduceIte, Splice.removeProbe_pipeline,
    stopped.binRemove_of_mem mem, Option.getD_some, elementLinkMany,
    removed.elementLink_of_canLink Faults.none rfl free]
  exact ⟨trivial, trivial, rfl, rfl, s.pipeline.children_nodup.not_mem_erase,
    List.mem_cons_self _ _⟩

end Faithful

/-- `fp_filter_dynamic_link_info` with `bin` as `main_element`: the filter goes between the
primary detector and `nvvideo-converter`, blocked at the stream muxer. -/
def spliceInfo (bin : Elem) : LinkUnlinkInfo := ⟨bin, .primaryDetector, .streammux, .nvvidconv⟩

def mainChain (bin : Option Elem) : List Elem :=
  [.streammux, .primaryDetector] ++ bin.toList ++ [.nvvidconv]

/-- The pipeline `main` builds around the splice point: `gst_bin_add_many`, then
`gst_element_link_many` along the chain. -/
def mainPipeline (serial : Option Nat) : Pipeline :=
  (elementLinkMany Faults.none
    (.ofChildren (mainChain (serial.map .filterBin)) (by cases serial <;> simp [mainChain]))
    (mainChain (serial.map .filterBin))).1

theorem mainPipeline_none_links :
    (mainPipeline none).links =
      [(.primaryDetector, .nvvidconv), (.streammux, .primaryDetector)] := by
  decide

def Partial (info : LinkUnlinkInfo) (p : Pipeline) : Prop :=
  ¬ Spliced info p ∧ ¬ Bypassed info p

instance (info : LinkUnlinkInfo) (p : Pipeline) : Decidable (Partial info p) :=
  inferInstanceAs (Decidable (_ ∧ _))

/-- The failure branches leave neither topology. When `gst_pad_unlink` fails, the bin that
`gst_bin_add` put in stays there beside the direct link; when the first link of
`gst_element_link_many` is refused, the bin is in the pipeline and linked to nothing while
the direct link is gone; when the relink after a removal is refused, the neighbours stay
apart. -/
theorem splice_failures_leave_partial_topology :
    Partial (spliceInfo (.filterBin 1))
        (addElemProbeCb { Faults.none with unlinkFails := fun _ _ => true }
          (spliceInfo (.filterBin 1)) .streammux
          ⟨mainPipeline none, [(.streammux, .addElem (spliceInfo (.filterBin 1)))]⟩
          ).splice.pipeline ∧
      (addElemProbeCb { Faults.none with unlinkFails := fun _ _ => true }
          (spliceInfo (.filterBin 1)) .streammux
          ⟨mainPipeline none, [(.streammux, .addElem (spliceInfo (.filterBin 1)))]⟩
          ).splice.pipeline.children ≠ (mainPipeline none).children ∧
      Partial (spliceInfo (.filterBin 1))
        (addElemProbeCb { Faults.none with linkFails := fun a _ => a = .primaryDetector }
          (spliceInfo (.filterBin 1)) .streammux
          ⟨mainPipeline none, [(.streammux, .addElem (spliceInfo (.filterBin 1)))]⟩
          ).splice.pipeline ∧
      Partial (spliceInfo (.filterBin 0))
        (removeElemProbeCb { Faults.none with linkFails := fun _ _ => true }
          (spliceInfo (.filterBin 0)) (.filterBin 0) .eos
          ⟨mainPipeline (some 0), [(.filterBin 0, .removeElem (spliceInfo (.filterBin 0)))]⟩
          ).splice.pipeline := by
  decide

end DeepStreamFpFilter.DynamicLink
