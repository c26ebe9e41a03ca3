import DeepStreamFpFilter.SpliceShape

/-! The fpfilter switch of `deepstream_fpfilter_app.c`. `enable_fpfilter` and
`disable_fpfilter`, called from `handle_usr_prompt`, splice a new filter bin in or the current
one out through the API of `DynamicLink`, while data items reach the `src` pad of the stream
muxer and fire the armed probes. A bin that `pad_probe_cb` sends an EOS into either drains on
the calling thread, so that `remove_elem_probe_cb` runs inside the call, or holds the EOS
until a later step releases it. Each command and each item is one atomic step.

`Phase` is the cycle the splice point is designed to go through; `Phase.Holds` says which
application states a phase stands for, and `holds_step` that the application follows the
cycle as long as no `enable_fpfilter` comes while a removal is in flight. -/

namespace DeepStreamFpFilter.FilterToggle

open Gst DynamicLink

structure App where
  splice : Splice
  draining : List Elem
  isFpfilterEnabled : Bool
  mainElement : Option Elem
  created : Nat

def App.setSplice (a : App) (s : Splice) : App := { a with splice := s }

def initial (enabled : Bool) : App :=
  let serial := if enabled then some 0 else none
  ⟨⟨mainPipeline serial, []⟩, [], enabled, serial.map .filterBin, if enabled then 1 else 0⟩

/-- `enable_fpfilter`; `made` is whether `create_filter_elements_bin` succeeds. -/
def enableFpfilter (made : Bool) (a : App) : App :=
  if a.isFpfilterEnabled || !made then a
  else
    let bin := Elem.filterBin a.created
    { a with
      splice := (addElementToPipeline Faults.none (spliceInfo bin) a.splice).1
      isFpfilterEnabled := true
      mainElement := some bin
      created := a.created + 1 }

/-- `disable_fpfilter`. -/
def disableFpfilter (a : App) : App :=
  if !a.isFpfilterEnabled then a
  else
    { a with
      splice := a.mainElement.elim a.splice fun bin =>
        (removeElementFromPipeline Faults.none (spliceInfo bin) a.splice).1
      isFpfilterEnabled := false
      mainElement := none }

def Refuses (a : App) (bin : Elem) : Prop :=
  a.splice.pipeline.state bin ≠ .playing ∨ bin ∈ a.draining

instance (a : App) (bin : Elem) : Decidable (Refuses a bin) :=
  inferInstanceAs (Decidable (_ ∨ _))

def holdEos (bin : Elem) (a : App) : App :=
  if Refuses a bin then a else { a with draining := a.draining ++ [bin] }

def releaseEos (bin : Elem) (a : App) : App :=
  (fireProbes App.splice App.setSplice holdEos Faults.none bin .eos (a.splice.probesOn bin)
    { a with draining := a.draining.erase bin }).1

/-- The EOS `pad_probe_cb` sends into `bin`; `sync` says which bins drain on the calling
thread. -/
def sendEos (sync : Elem → Bool) (bin : Elem) (a : App) : App :=
  if Refuses a bin then a else if sync bin then releaseEos bin a else holdEos bin a

inductive Event where
  | enable (made : Bool)
  | disable
  | item (kind : ItemKind) (sync : Elem → Bool)
  | release (bin : Elem)

def step (a : App) : Event → App
  | .enable made => enableFpfilter made a
  | .disable => disableFpfilter a
  | .item kind sync =>
    (fireProbes App.splice App.setSplice (sendEos sync) Faults.none .streammux kind
      (a.splice.probesOn .streammux) a).1
  | .release bin => if bin ∈ a.draining then releaseEos bin a else a

def run (a : App) (events : List Event) : App := events.foldl step a

def Quiescent (a : App) : Prop := a.splice.probes = [] ∧ a.draining = []

instance (a : App) : Decidable (Quiescent a) := inferInstanceAs (Decidable (_ ∧ _))

def Consistent (a : App) : Prop :=
  if a.isFpfilterEnabled then
    ∃ bin, a.splice.pipeline.filterBins = [bin] ∧
      a.splice.pipeline.Linked .primaryDetector bin ∧ a.splice.pipeline.Linked bin .nvvidconv
  else a.splice.pipeline.filterBins = [] ∧ a.splice.pipeline.Linked .primaryDetector .nvvidconv

/-- An enable while the old bin drains. `add_elem_probe_cb` finds the name
`fp-filter-bin` still taken and the primary detector linked to the old bin, so it gives up;
then the old bin's removal links the neighbours directly. Nothing is armed or draining, the
flag is set, and no filter bin is left. -/
theorem enable_while_draining_loses_bin :
    Quiescent (run (initial true)
        [.disable, .enable true, .item .buffer (fun _ => false), .release (.filterBin 0)]) ∧
      ¬ Consistent (run (initial true)
        [.disable, .enable true, .item .buffer (fun _ => false), .release (.filterBin 0)]) := by
  have enabled : (run (initial true) [.disable, .enable true, .item .buffer (fun _ => false),
      .release (.filterBin 0)]).isFpfilterEnabled = true := by decide
  have no_bin : (run (initial true) [.disable, .enable true, .item .buffer (fun _ => false),
      .release (.filterBin 0)]).splice.pipeline.filterBins = [] := by decide
  exact ⟨by decide, fun consistent => by simp [Consistent, enabled, no_bin] at consistent⟩

inductive Phase where
  | enabled (serial : Nat)
  | disabled
  | adding (serial : Nat)
  | addingThenRemoving (serial : Nat)
  | blocking (serial : Nat)
  | draining (serial : Nat)
  deriving DecidableEq, Repr

def Event.isEnable : Event → Bool
  | .enable _ => true
  | _ => false

def App.removalInFlight (a : App) : Bool :=
  a.splice.probes.any (·.2.removes) || !a.draining.isEmpty

def Topology (p : Pipeline) : Option Nat → Prop
  | some n => p.filterBins = [.filterBin n] ∧ Spliced (spliceInfo (.filterBin n)) p
  | none => p.filterBins = [] ∧ p.Linked .primaryDetector .nvvidconv

instance (p : Pipeline) : (serial : Option Nat) → Decidable (Topology p serial)
  | some _ => inferInstanceAs (Decidable (_ ∧ _))
  | none => inferInstanceAs (Decidable (_ ∧ _))

namespace Phase

def flag : Phase → Bool
  | enabled _ | adding _ => true
  | _ => false

def main : Phase → Option Elem
  | enabled n | adding n => some (.filterBin n)
  | _ => none

def spliced : Phase → Option Nat
  | enabled n | blocking n | draining n => some n
  | _ => none

def probes : Phase → List (Elem × Probe)
  | adding n => [(.streammux, .addElem (spliceInfo (.filterBin n)))]
  | addingThenRemoving n =>
    [(.streammux, .addElem (spliceInfo (.filterBin n))),
      (.streammux, .padProbe (spliceInfo (.filterBin n)))]
  | blocking n => [(.streammux, .padProbe (spliceInfo (.filterBin n)))]
  | draining n => [(.filterBin n, .removeElem (spliceInfo (.filterBin n)))]
  | _ => []

def holding : Phase → List Elem
  | draining n => [.filterBin n]
  | _ => []

def removing : Phase → Bool
  | addingThenRemoving _ | blocking _ | draining _ => true
  | _ => false

def next (fresh : Nat) : Phase → Event → Phase
  | disabled, .enable true => adding fresh
  | enabled n, .disable => blocking n
  | adding n, .disable => addingThenRemoving n
  | adding n, .item _ _ => enabled n
  | addingThenRemoving n, .item _ _ => blocking n
  | blocking n, .item _ sync => if sync (.filterBin n) then disabled else draining n
  | draining n, .release bin => if bin = .filterBin n then disabled else draining n
  | ph, _ => ph

structure Holds (ph : Phase) (a : App) : Prop where
  flag : a.isFpfilterEnabled = ph.flag
  main : a.mainElement = ph.main
  probes : a.splice.probes = ph.probes
  draining : a.draining = ph.holding
  topology : Topology a.splice.pipeline ph.spliced

end Phase

open Phase

theorem holds_initial (enabled : Bool) :
    (if enabled then Phase.enabled 0 else disabled).Holds (initial enabled) := by
  cases enabled <;> exact ⟨rfl, rfl, rfl, rfl, by decide⟩

theorem Phase.Holds.removalInFlight {ph : Phase} {a : App} (holds : ph.Holds a) :
    a.removalInFlight = ph.removing := by
  cases ph <;> simp [App.removalInFlight, holds.probes, holds.draining, Phase.probes,
    Phase.holding, Phase.removing, Probe.removes]

theorem isFilterBin_of_no_bins {p : Pipeline} (no_bins : p.filterBins = []) {x : Elem}
    (mem : x ∈ p.children) : x.isFilterBin = false := by
  simpa using List.filter_eq_nil_iff.1 no_bins x mem

theorem name_free {p : Pipeline} (no_bins : p.filterBins = []) (n : Nat) :
    ∀ x ∈ p.children, x.name ≠ (Elem.filterBin n).name := by
  intro x mem
  have plain := isFilterBin_of_no_bins no_bins mem
  cases x <;> simp_all [Elem.name, Elem.isFilterBin]

variable {a : App} {n : Nat}

theorem step_item_of_adding {rest : List (Elem × Probe)}
    (probes : a.splice.probes = (.streammux, .addElem (spliceInfo (.filterBin n))) :: rest)
    (topology : Topology a.splice.pipeline none) (kind : ItemKind) (sync : Elem → Bool) :
    ∃ s, step a (.item kind sync) = a.setSplice s ∧ s.probes = rest ∧
      Topology s.pipeline (some n) := by
  obtain ⟨no_bins, linked⟩ := topology
  have absent : Elem.filterBin n ∉ a.splice.pipeline.children := fun mem =>
    nomatch isFilterBin_of_no_bins no_bins mem
  obtain ⟨drop, eos, erased, children, spliced⟩ := @addElemProbeCb_bypassed
    (spliceInfo (.filterBin n)) a.splice .streammux ⟨absent, linked⟩ (name_free no_bins n)
  refine ⟨_, ?_, by rw [erased, probes]; simp, ?_, spliced⟩
  · simp only [step, Splice.probesOn, probes, List.filter_cons, beq_self_eq_true, ↓reduceIte,
      List.map_cons, fireProbes, Probe.sees, callProbe, eos, drop]
  · simp only [Pipeline.filterBins] at no_bins ⊢
    rw [children, List.filter_cons_of_pos rfl, no_bins]
    rfl

theorem releaseEos_of_spliced
    (probes : a.splice.probes = [(.filterBin n, .removeElem (spliceInfo (.filterBin n)))])
    (topology : Topology a.splice.pipeline (some n)) :
    ∃ s, releaseEos (.filterBin n) a =
        ({ a with draining := a.draining.erase (.filterBin n) } : App).setSplice s ∧
      s.probes = [] ∧ Topology s.pipeline none := by
  obtain ⟨bins, spliced⟩ := topology
  obtain ⟨drop, eos, erased, children, -, linked⟩ := @removeElemProbeCb_spliced
    (spliceInfo (.filterBin n)) a.splice (.filterBin n) ⟨nofun, nofun⟩ spliced
  refine ⟨_, ?_, by rw [erased, probes]; simp, ?_, linked⟩
  · simp only [releaseEos, Splice.probesOn, probes, List.filter_cons, beq_self_eq_true,
      ↓reduceIte, List.filter_nil, List.map_cons, List.map_nil, fireProbes, Probe.sees,
      callProbe, eos, drop]
  · simp only [Pipeline.filterBins] at bins ⊢
    rw [children, ← List.erase_filter, bins]
    exact List.erase_cons_head _ _

variable {ph : Phase}

theorem Phase.Holds.of_step_eq {e : Event} (holds : ph.Holds a) (same : step a e = a)
    (stays : ph.next a.created e = ph) : (ph.next a.created e).Holds (step a e) := by
  rw [same, stays]
  exact holds

theorem Phase.Holds.enable (holds : ph.Holds a) (idle : ph.removing = false) (made : Bool) :
    (ph.next a.created (.enable made)).Holds (step a (.enable made)) := by
  have flag := holds.flag
  cases ph with
  | enabled n | adding n =>
    exact holds.of_step_eq (by simp [step, enableFpfilter, flag, Phase.flag]) rfl
  | disabled =>
    cases made with
    | false => exact holds.of_step_eq (by simp [step, enableFpfilter]) rfl
    | true =>
      show (adding a.created).Holds _
      simp only [Phase.flag] at flag
      simp only [step, enableFpfilter, flag, Bool.not_true, Bool.or_false, Bool.false_eq_true,
        ↓reduceIte, addElementToPipeline, armBlockProbe, Faults.none_missingPad]
      exact ⟨rfl, rfl, by simp [holds.probes, Phase.probes, spliceInfo], holds.draining,
        holds.topology⟩
  | addingThenRemoving n | blocking n | draining n => simp [Phase.removing] at idle

theorem Phase.Holds.disable (holds : ph.Holds a) :
    (ph.next a.created .disable).Holds (step a .disable) := by
  have flag := holds.flag
  have main := holds.main
  cases ph with
  | enabled n | adding n =>
    simp only [Phase.flag, Phase.main] at flag main
    simp only [step, disableFpfilter, flag, main, Bool.not_true, Bool.false_eq_true, ↓reduceIte,
      Option.elim, removeElementFromPipeline, armBlockProbe, Faults.none_missingPad]
    exact ⟨rfl, rfl, by simp [holds.probes, Phase.probes, Phase.next, spliceInfo], holds.draining,
      holds.topology⟩
  | disabled | addingThenRemoving n | blocking n | draining n =>
    exact holds.of_step_eq (by simp [step, disableFpfilter, flag, Phase.flag]) rfl

theorem Phase.Holds.item (holds : ph.Holds a) (kind : ItemKind) (sync : Elem → Bool) :
    (ph.next a.created (.item kind sync)).Holds (step a (.item kind sync)) := by
  have probes := holds.probes
  cases ph with
  | enabled n | disabled | draining n =>
    refine holds.of_step_eq ?_ rfl
    simp [step, Splice.probesOn, probes, Phase.probes, fireProbes]
  | adding n | addingThenRemoving n =>
    obtain ⟨s, eq, rest, topology⟩ := step_item_of_adding probes holds.topology kind sync
    rw [eq]
    exact ⟨holds.flag, holds.main, rest, holds.draining, topology⟩
  | blocking n =>
    have topology := holds.topology
    have draining := holds.draining
    simp only [Phase.spliced, Phase.holding] at topology draining
    set info := spliceInfo (.filterBin n)
    set armed := (a.splice.removeProbe .streammux (.padProbe info)).addProbe (.filterBin n)
      (.removeElem info)
    have armed_probes : armed.probes = [(.filterBin n, .removeElem info)] := by
      simp [armed, probes, Phase.probes, info]
    have accepts : ¬ Refuses (a.setSplice armed) (.filterBin n) := by
      simp only [Refuses, App.setSplice, armed, Splice.addProbe_pipeline,
        Splice.removeProbe_pipeline, draining, List.not_mem_nil, or_false, not_not]
      exact topology.2.2.1
    have fired : step a (.item kind sync) = sendEos sync (.filterBin n) (a.setSplice armed) := by
      simp [step, Splice.probesOn, probes, Phase.probes, fireProbes, Probe.sees, callProbe,
        padProbeCb, armed, info, spliceInfo]
    rw [fired]
    by_cases drains : sync (.filterBin n)
    · show (if sync (.filterBin n) then disabled else Phase.draining n).Holds _
      obtain ⟨s, eq, no_probes, bypassed⟩ :=
        @releaseEos_of_spliced (a.setSplice armed) n armed_probes topology
      simp only [drains, ↓reduceIte, sendEos, accepts, eq]
      exact ⟨holds.flag, holds.main, no_probes, by simp [App.setSplice, draining, Phase.holding],
        bypassed⟩
    · show (if sync (.filterBin n) then disabled else Phase.draining n).Holds _
      simp only [drains, Bool.false_eq_true, ↓reduceIte, sendEos, holdEos, accepts]
      exact ⟨holds.flag, holds.main, armed_probes,
        by simp [App.setSplice, draining, Phase.holding], topology⟩

theorem Phase.Holds.release (holds : ph.Holds a) (bin : Elem) :
    (ph.next a.created (.release bin)).Holds (step a (.release bin)) := by
  have draining := holds.draining
  cases ph with
  | draining n =>
    show (if bin = .filterBin n then disabled else Phase.draining n).Holds _
    by_cases same : bin = .filterBin n
    · subst same
      obtain ⟨s, eq, no_probes, bypassed⟩ := releaseEos_of_spliced holds.probes holds.topology
      simp only [↓reduceIte, step, draining, Phase.holding, List.mem_singleton, eq]
      exact ⟨holds.flag, holds.main, no_probes, by simp [App.setSplice, draining, Phase.holding],
        bypassed⟩
    · have unchanged : step a (.release bin) = a := by simp [step, draining, Phase.holding, same]
      simp only [same, ↓reduceIte, unchanged]
      exact holds
  | enabled n | disabled | adding n | addingThenRemoving n | blocking n =>
    exact holds.of_step_eq (by simp [step, draining, Phase.holding]) rfl

theorem holds_step (holds : ph.Holds a) (e : Event)
    (guard : e.isEnable = true → ph.removing = false) :
    (ph.next a.created e).Holds (step a e) := by
  cases e with
  | enable made => exact holds.enable (guard rfl) made
  | disable => exact holds.disable
  | item kind sync => exact holds.item kind sync
  | release bin => exact holds.release bin

def enablesAfterRemovals : App → List Event → Bool
  | _, [] => true
  | a, e :: events => (!e.isEnable || !a.removalInFlight) && enablesAfterRemovals (step a e) events

theorem holds_run (holds : ph.Holds a) (events : List Event)
    (guarded : enablesAfterRemovals a events = true) :
    ∃ ph' : Phase, ph'.Holds (run a events) := by
  induction events generalizing ph a with
  | nil => exact ⟨ph, holds⟩
  | cons e events ih =>
    simp only [enablesAfterRemovals, Bool.and_eq_true, Bool.or_eq_true,
      Bool.not_eq_true'] at guarded
    refine ih (holds_step holds e fun enable => ?_) guarded.2
    rw [← holds.removalInFlight]
    exact guarded.1.resolve_left (by simp [enable])

theorem Phase.Holds.consistent (holds : ph.Holds a) (quiet : Quiescent a) : Consistent a := by
  have probes := holds.probes
  have topology := holds.topology
  cases ph with
  | enabled n =>
    simp only [Consistent, holds.flag, Phase.flag, ↓reduceIte]
    exact ⟨_, topology.1, topology.2.2.2⟩
  | disabled =>
    simp only [Consistent, holds.flag, Phase.flag, Bool.false_eq_true, ↓reduceIte]
    exact topology
  | adding n | addingThenRemoving n | blocking n | draining n =>
    simp [quiet.1, Phase.probes] at probes

theorem consistent_when_quiescent (enabled : Bool) (events : List Event)
    (guarded : enablesAfterRemovals (initial enabled) events = true)
    (quiet : Quiescent (run (initial enabled) events)) :
    Consistent (run (initial enabled) events) := by
  obtain ⟨ph, holds⟩ := holds_run (holds_initial enabled) events guarded
  exact holds.consistent quiet

theorem consistent_when_quiescent_toggles :
    enablesAfterRemovals (initial true) [.disable, .item .buffer (fun _ => false),
      .release (.filterBin 0), .enable true, .item .eos (fun _ => true)] = true ∧
    Quiescent (run (initial true) [.disable, .item .buffer (fun _ => false),
      .release (.filterBin 0), .enable true, .item .eos (fun _ => true)]) ∧
    Consistent (run (initial true) [.disable, .item .buffer (fun _ => false),
      .release (.filterBin 0), .enable true, .item .eos (fun _ => true)]) :=
  ⟨by decide, by decide, consistent_when_quiescent true _ (by decide) (by decide)⟩

open SpliceShape

structure App.Shaped (a : App) : Prop where
  splice : SpliceShaped a.splice
  main : ∀ bin ∈ a.mainElement, ∃ n, bin = .filterBin n
  draining : ∀ bin ∈ a.draining,
    ∃ n, bin = .filterBin n ∧ bin ∈ a.splice.pipeline.children
  drainingNodup : a.draining.Nodup

theorem shaped_initial (enabled : Bool) : (initial enabled).Shaped := by
  refine ⟨shaped_mainPipeline _, fun bin mem => ?_, nofun, List.nodup_nil⟩
  cases enabled <;> simp [initial] at mem
  exact ⟨0, mem.symm⟩

section Shaped

variable {a : App} (shaped : a.Shaped)
include shaped

theorem App.Shaped.setSplice {s : Splice} (splice : SpliceShaped s)
    (kept : a.splice.pipeline.children ⊆ s.pipeline.children) : (a.setSplice s).Shaped :=
  ⟨splice, shaped.main, fun bin mem => (shaped.draining bin mem).imp fun _ ⟨same, child⟩ =>
    ⟨same, kept child⟩, shaped.drainingNodup⟩

theorem App.Shaped.playing {n : Nat} (accepts : ¬ Refuses a (.filterBin n)) :
    Elem.filterBin n ∈ a.splice.pipeline.children ∧ Elem.filterBin n ∉ a.draining := by
  simp only [Refuses, not_or, not_not] at accepts
  exact ⟨shaped.splice.pipeline.playing n accepts.1, accepts.2⟩

theorem App.Shaped.releaseEos {n : Nat} (child : Elem.filterBin n ∈ a.splice.pipeline.children) :
    (releaseEos (.filterBin n) a).Shaped := by
  have erased : ({ a with draining := a.draining.erase (.filterBin n) } : App).Shaped :=
    ⟨shaped.splice, shaped.main,
      fun bin mem => shaped.draining bin (List.mem_of_mem_erase mem),
      shaped.drainingNodup.erase _⟩
  rw [FilterToggle.releaseEos, fireProbes_removeElem App.splice App.setSplice holdEos
    (fun _ => rfl) _ _ _ _ _ (shaped.splice.probesOn_filterBin n)]
  split
  · obtain ⟨splice, children, -⟩ :=
      removeElemProbeCb_shaped shaped.splice n (.filterBin n) child
    refine ⟨splice, shaped.main, fun bin mem => ?_, shaped.drainingNodup.erase _⟩
    obtain ⟨apart, mem⟩ := shaped.drainingNodup.mem_erase_iff.1 mem
    obtain ⟨k, rfl, child⟩ := shaped.draining _ mem
    exact ⟨k, rfl, children ▸ (List.mem_erase_of_ne apart).2 child⟩
  · exact erased

theorem App.Shaped.holdEos (n : Nat) : (holdEos (.filterBin n) a).Shaped := by
  unfold FilterToggle.holdEos
  split
  · exact shaped
  · next accepts =>
    obtain ⟨child, fresh⟩ := shaped.playing accepts
    refine ⟨shaped.splice, shaped.main, fun bin mem => ?_,
      shaped.drainingNodup.append (List.nodup_singleton _) (by simpa using fresh)⟩
    rcases List.mem_append.1 mem with old | new
    · exact shaped.draining bin old
    · exact ⟨n, List.mem_singleton.1 new, List.mem_singleton.1 new ▸ child⟩

theorem App.Shaped.sendEos (sync : Elem → Bool) (n : Nat) :
    (sendEos sync (.filterBin n) a).Shaped := by
  unfold FilterToggle.sendEos
  split
  · exact shaped
  · next accepts =>
    split
    · exact shaped.releaseEos (shaped.playing accepts).1
    · exact shaped.holdEos n

theorem App.Shaped.item (kind : ItemKind) (sync : Elem → Bool) :
    (step a (.item kind sync)).Shaped := by
  refine fireProbes_induction App.splice App.setSplice (FilterToggle.sendEos sync) App.Shaped _ _ _
    _ (fun probe mem _ x xShaped => ?_) a shaped
  cases shaped.splice.probesOn mem with
  | addElem n =>
    obtain ⟨splice, kept, eos⟩ := addElemProbeCb_shaped xShaped.splice n .streammux
    simp only [afterProbe, callProbe, eos]
    exact xShaped.setSplice splice kept
  | padProbe n =>
    obtain ⟨same, splice, eos⟩ := padProbeCb_shaped xShaped.splice n .streammux
    simp only [afterProbe, callProbe, eos]
    exact (xShaped.setSplice splice (same ▸ List.Subset.refl _)).sendEos sync n

theorem App.Shaped.step : ∀ e, (step a e).Shaped
  | .enable made => by
    show (enableFpfilter made a).Shaped
    unfold enableFpfilter
    split
    · exact shaped
    · exact ⟨shaped.splice.addProbe (.addElem _), by simp, shaped.draining,
        shaped.drainingNodup⟩
  | .disable => by
    show (disableFpfilter a).Shaped
    unfold disableFpfilter
    split
    · exact shaped
    · cases main : a.mainElement with
      | none => exact ⟨shaped.splice, by simp, shaped.draining, shaped.drainingNodup⟩
      | some bin =>
        obtain ⟨n, rfl⟩ := shaped.main _ main
        exact ⟨shaped.splice.addProbe (.padProbe n), by simp, shaped.draining,
          shaped.drainingNodup⟩
  | .item kind sync => shaped.item kind sync
  | .release bin => by
    show (if bin ∈ a.draining then FilterToggle.releaseEos bin a else a).Shaped
    split
    · next mem =>
      obtain ⟨n, rfl, child⟩ := shaped.draining bin mem
      exact shaped.releaseEos child
    · exact shaped

theorem App.Shaped.run (events : List Event) : (run a events).Shaped := by
  induction events generalizing a with
  | nil => exact shaped
  | cons e events ih => exact ih (shaped.step e)

end Shaped

theorem at_most_one_filter_bin (enabled : Bool) (events : List Event) :
    (run (initial enabled) events).splice.pipeline.filterBins.length ≤ 1 ∧
      (run (initial enabled) events).splice.pipeline.Linked .streammux .primaryDetector :=
  have shaped := ((shaped_initial enabled).run events).splice.pipeline
  ⟨shaped.filterBins_length, shaped.muxLinked⟩

end DeepStreamFpFilter.FilterToggle
