import DeepStreamFpFilter.DynamicLink

/-! The shape the splice point keeps whatever the order of the splice requests and of the
items that fire them: every link is one that `main` or a callback makes, the stream muxer
stays linked to the primary detector, the armed probes are those `add_element_to_pipeline`
and `remove_element_from_pipeline` arm for a filter bin, and at most one filter bin is in the
pipeline, since they are all named `fp-filter-bin` and `gst_bin_add` refuses a second child
of one name. With no fault each callback keeps the shape; `remove_elem_probe_cb` needs its bin
to be in the pipeline, which holds whenever the bin has an EOS to let out. -/

namespace DeepStreamFpFilter.SpliceShape

open Gst DynamicLink

inductive DesignedLink : Elem × Elem → Prop
  | muxToPrimary : DesignedLink (.streammux, .primaryDetector)
  | direct : DesignedLink (.primaryDetector, .nvvidconv)
  | intoBin (n : Nat) : DesignedLink (.primaryDetector, .filterBin n)
  | outOfBin (n : Nat) : DesignedLink (.filterBin n, .nvvidconv)

inductive DesignedProbe : Elem × Probe → Prop
  | addElem (n : Nat) : DesignedProbe (.streammux, .addElem (spliceInfo (.filterBin n)))
  | padProbe (n : Nat) : DesignedProbe (.streammux, .padProbe (spliceInfo (.filterBin n)))
  | removeElem (n : Nat) :
    DesignedProbe (.filterBin n, .removeElem (spliceInfo (.filterBin n)))

structure Shaped (p : Pipeline) : Prop where
  muxLinked : p.Linked .streammux .primaryDetector
  links : ∀ link ∈ p.links, DesignedLink link
  oneBin : ∀ m n, .filterBin m ∈ p.children → .filterBin n ∈ p.children → m = n
  playing : ∀ n, p.state (.filterBin n) = .playing → .filterBin n ∈ p.children
  direct : p.Linked .primaryDetector .nvvidconv → ∀ n, .filterBin n ∉ p.children

structure SpliceShaped (s : Splice) : Prop where
  pipeline : Shaped s.pipeline
  probes : ∀ armed ∈ s.probes, DesignedProbe armed

theorem mainPipeline_children (serial : Option Nat) :
    (mainPipeline serial).children = mainChain (serial.map .filterBin) :=
  (elementLinkMany_frame _ _ _).1

theorem mainPipeline_state (serial : Option Nat) (e : Elem) :
    (mainPipeline serial).state e =
      if e ∈ mainChain (serial.map .filterBin) then .playing else .null :=
  congrFun (elementLinkMany_frame _ _ _).2.1 e

theorem mainPipeline_some_links (n : Nat) :
    (mainPipeline (some n)).links =
      [(.filterBin n, .nvvidconv), (.primaryDetector, .filterBin n),
        (.streammux, .primaryDetector)] := by
  simp [mainPipeline, mainChain, elementLinkMany, Pipeline.elementLink, Pipeline.CanLink,
    Pipeline.ofChildren]

theorem shaped_mainPipeline (serial : Option Nat) : SpliceShaped ⟨mainPipeline serial, []⟩ := by
  refine ⟨⟨?_, ?_, ?_, fun n playing => ?_, ?_⟩,
    fun _ mem => absurd mem (List.not_mem_nil _)⟩
  · cases serial <;> simp [Pipeline.Linked, mainPipeline_none_links, mainPipeline_some_links]
  · cases serial
    · simp only [mainPipeline_none_links, List.mem_cons, List.not_mem_nil, or_false]
      rintro _ (rfl | rfl) <;> constructor
    · simp only [mainPipeline_some_links, List.mem_cons, List.not_mem_nil, or_false]
      rintro _ (rfl | rfl | rfl) <;> constructor
  · cases serial <;> simp_all [mainPipeline_children, mainChain]
  · rw [mainPipeline_state] at playing
    split at playing
    · rwa [mainPipeline_children]
    · cases playing
  · cases serial <;> simp [Pipeline.Linked, mainPipeline_none_links, mainPipeline_some_links,
      mainPipeline_children, mainChain]

theorem Shaped.filterBins_length {p : Pipeline} (shaped : Shaped p) :
    p.filterBins.length ≤ 1 := by
  have same : ∀ x ∈ p.filterBins, ∀ y ∈ p.filterBins, x = y := by
    intro x xMem y yMem
    obtain ⟨xChild, xBin⟩ := List.mem_filter.1 xMem
    obtain ⟨yChild, yBin⟩ := List.mem_filter.1 yMem
    cases x <;> cases y <;>
      first
      | exact congrArg _ (shaped.oneBin _ _ xChild yChild)
      | simp [Elem.isFilterBin] at xBin yBin
  have nodup : p.filterBins.Nodup := p.children_nodup.filter _
  rcases bins : p.filterBins with _ | ⟨x, _ | ⟨y, rest⟩⟩
  · simp
  · simp
  · rw [bins] at same nodup
    exact absurd (same x (by simp) y (by simp) ▸ List.mem_cons_self y rest)
      (List.nodup_cons.1 nodup).1

theorem SpliceShaped.addProbe {s : Splice} (shaped : SpliceShaped s) {pad : Elem} {probe : Probe}
    (designed : DesignedProbe (pad, probe)) : SpliceShaped (s.addProbe pad probe) := by
  refine ⟨shaped.pipeline, fun armed mem => ?_⟩
  rcases List.mem_append.1 mem with old | new
  · exact shaped.probes armed old
  · exact List.mem_singleton.1 new ▸ designed

section Probes

variable {s : Splice} (shaped : SpliceShaped s)
include shaped

theorem SpliceShaped.probesOn {pad : Elem} {probe : Probe} (mem : probe ∈ s.probesOn pad) :
    DesignedProbe (pad, probe) := by
  simp only [Splice.probesOn, List.mem_map, List.mem_filter, beq_iff_eq] at mem
  obtain ⟨⟨pad, probe⟩, ⟨armed, rfl⟩, rfl⟩ := mem
  exact shaped.probes _ armed

theorem SpliceShaped.probesOn_primaryDetector : s.probesOn .primaryDetector = [] :=
  List.eq_nil_iff_forall_not_mem.2 fun _ mem => nomatch shaped.probesOn mem

theorem SpliceShaped.probesOn_filterBin (n : Nat) :
    ∀ probe ∈ s.probesOn (.filterBin n), probe = .removeElem (spliceInfo (.filterBin n)) :=
  fun _ mem => by cases shaped.probesOn mem; rfl

end Probes

section Callbacks

variable {p : Pipeline} (shaped : Shaped p) {n : Nat}
include shaped

theorem Shaped.no_bins_of_direct (direct : p.Linked .primaryDetector .nvvidconv) :
    ∀ x ∈ p.children, x.name ≠ (Elem.filterBin n).name := by
  intro x mem same
  cases x with
  | filterBin m => exact shaped.direct direct m mem
  | _ => simp [Elem.name] at same

theorem Shaped.addChild (absent : Elem.filterBin n ∉ p.children)
    (none_in : ∀ m, .filterBin m ∉ p.children)
    (apart : ¬ p.Linked .primaryDetector .nvvidconv) :
    Shaped (p.addChild (.filterBin n) absent) where
  muxLinked := shaped.muxLinked
  links := shaped.links
  oneBin m k := by simp_all
  playing k playing := List.mem_cons_of_mem _ (shaped.playing k playing)
  direct linked := absurd linked apart

theorem Shaped.splicedIn (absent : Elem.filterBin n ∉ p.children)
    (direct : p.Linked .primaryDetector .nvvidconv) :
    Shaped ((elementLinkMany Faults.none
      ((p.addChild (.filterBin n) absent).unlink .primaryDetector .nvvidconv)
      [.primaryDetector, .filterBin n, .nvvidconv]).1.setState (.filterBin n) .playing) := by
  obtain ⟨children, state, kept, added⟩ := elementLinkMany_frame Faults.none
    ((p.addChild (.filterBin n) absent).unlink .primaryDetector .nvvidconv)
    [.primaryDetector, .filterBin n, .nvvidconv]
  have freed := Pipeline.Linked.unlink_free
    (show (p.addChild (.filterBin n) absent).Linked .primaryDetector .nvvidconv from direct)
  simp only [List.zip_cons_cons, List.tail_cons, List.zip_nil_right, List.mem_cons,
    List.mem_singleton, List.not_mem_nil, or_false, Pipeline.unlink_links,
    Pipeline.addChild_links] at added
  refine ⟨?_, fun link mem => ?_, ?_, ?_, fun linked => ?_⟩
  · exact kept (List.mem_erase_of_ne (by simp) |>.2 shaped.muxLinked)
  · rcases added link mem with old | rfl | rfl
    · exact shaped.links _ (List.mem_of_mem_erase old)
    · exact .intoBin n
    · exact .outOfBin n
  · simp only [Pipeline.setState_children, children, Pipeline.unlink_children,
      Pipeline.addChild_children, List.mem_cons, Elem.filterBin.injEq]
    rintro m k (rfl | mem) (rfl | mem')
    exacts [rfl, absurd mem' (shaped.direct direct _), absurd mem (shaped.direct direct _),
      shaped.oneBin m k mem mem']
  · intro k playing
    simp only [Pipeline.setState_state, Pipeline.setState_children, children, state,
      Pipeline.unlink_children, Pipeline.addChild_children, Pipeline.unlink_state,
      Pipeline.addChild_state] at playing ⊢
    split at playing
    · next same => exact same ▸ List.mem_cons_self _ _
    · exact List.mem_cons_of_mem _ (shaped.playing k (by simpa using playing))
  · rcases added _ linked with old | same | same
    · exact absurd (List.mem_map_of_mem Prod.fst old) freed.1
    all_goals simp at same

end Callbacks

@[simp] theorem spliceInfo_mainElement (bin : Elem) : (spliceInfo bin).mainElement = bin := rfl

@[simp] theorem spliceInfo_mainPrevElement (bin : Elem) :
    (spliceInfo bin).mainPrevElement = .primaryDetector := rfl

@[simp] theorem spliceInfo_mainNextElement (bin : Elem) :
    (spliceInfo bin).mainNextElement = .nvvidconv := rfl

section Splices

variable {s : Splice} (shaped : SpliceShaped s) (n : Nat) (pad : Elem)
include shaped

theorem addElemProbeCb_shaped :
    SpliceShaped (addElemProbeCb Faults.none (spliceInfo (.filterBin n)) pad s).splice ∧
      s.pipeline.children ⊆
        (addElemProbeCb Faults.none (spliceInfo (.filterBin n)) pad s).splice.pipeline.children ∧
      (addElemProbeCb Faults.none (spliceInfo (.filterBin n)) pad s).eosTo = none := by
  have probes : ∀ armed ∈ (s.removeProbe pad (.addElem (spliceInfo (.filterBin n)))).probes,
      DesignedProbe armed :=
    fun armed mem => shaped.probes armed (List.mem_of_mem_erase mem)
  by_cases direct : s.pipeline.Linked .primaryDetector .nvvidconv
  · have fresh := shaped.pipeline.no_bins_of_direct direct (n := n)
    have absent : Elem.filterBin n ∉ s.pipeline.children := fun mem => fresh _ mem rfl
    have frame := elementLinkMany_frame Faults.none
      ((s.pipeline.addChild (.filterBin n) absent).unlink .primaryDetector .nvvidconv)
      [.primaryDetector, .filterBin n, .nvvidconv]
    simp only [addElemProbeCb, Splice.removeProbe_pipeline, spliceInfo_mainElement,
      s.pipeline.binAdd_of_fresh Faults.none rfl fresh, Option.getD_some, Faults.none_missingPad,
      Bool.or_false, Bool.false_eq_true, ↓reduceIte, spliceInfo_mainPrevElement,
      spliceInfo_mainNextElement, Pipeline.padUnlink_of_linked _ Faults.none rfl
        (show (s.pipeline.addChild _ absent).Linked .primaryDetector .nvvidconv from direct)]
    refine ⟨⟨shaped.pipeline.splicedIn absent direct, probes⟩, fun x mem => ?_, trivial⟩
    simpa [frame.1] using Or.inr mem
  · rcases s.pipeline.binAdd_getD Faults.none (.filterBin n) with same | ⟨absent, added, fresh⟩
    · simp only [addElemProbeCb, Splice.removeProbe_pipeline, spliceInfo_mainElement, same,
        Faults.none_missingPad, Bool.or_false, Bool.false_eq_true, ↓reduceIte,
        spliceInfo_mainPrevElement, spliceInfo_mainNextElement,
        Pipeline.padUnlink_of_not_linked Faults.none direct]
      exact ⟨⟨shaped.pipeline, probes⟩, List.Subset.refl _, trivial⟩
    · simp only [addElemProbeCb, Splice.removeProbe_pipeline, spliceInfo_mainElement, added,
        Faults.none_missingPad, Bool.or_false, Bool.false_eq_true, ↓reduceIte,
        spliceInfo_mainPrevElement, spliceInfo_mainNextElement,
        Pipeline.padUnlink_of_not_linked Faults.none
          (show ¬ (s.pipeline.addChild _ absent).Linked .primaryDetector .nvvidconv from direct)]
      exact ⟨⟨shaped.pipeline.addChild absent (fun m mem => fresh _ mem rfl) direct, probes⟩,
        List.subset_cons_self _ _, trivial⟩

theorem padProbeCb_shaped :
    (padProbeCb Faults.none (spliceInfo (.filterBin n)) pad s).splice.pipeline = s.pipeline ∧
      SpliceShaped (padProbeCb Faults.none (spliceInfo (.filterBin n)) pad s).splice ∧
      (padProbeCb Faults.none (spliceInfo (.filterBin n)) pad s).eosTo = some (.filterBin n) := by
  simp only [padProbeCb, Faults.none_missingPad, Bool.false_eq_true, ↓reduceIte,
    spliceInfo_mainElement]
  refine ⟨rfl, ⟨shaped.pipeline, fun armed mem => ?_⟩, trivial⟩
  simp only [Splice.addProbe_probes, Splice.removeProbe_probes, List.mem_append,
    List.mem_singleton] at mem
  rcases mem with old | rfl
  · exact shaped.probes armed (List.mem_of_mem_erase old)
  · exact .removeElem n

theorem removeElemProbeCb_shaped (child : .filterBin n ∈ s.pipeline.children) :
    SpliceShaped (removeElemProbeCb Faults.none (spliceInfo (.filterBin n)) pad .eos s).splice ∧
      (removeElemProbeCb Faults.none (spliceInfo (.filterBin n)) pad .eos s
        ).splice.pipeline.children = s.pipeline.children.erase (.filterBin n) ∧
      (removeElemProbeCb Faults.none (spliceInfo (.filterBin n)) pad .eos s).eosTo = none := by
  obtain ⟨⟨muxLinked, links, oneBin, playing, -⟩, probes⟩ := shaped
  set stopped := s.pipeline.setState (.filterBin n) .null
  obtain ⟨children, state, kept, added⟩ := elementLinkMany_frame Faults.none
    (stopped.removeChild (.filterBin n)) [.primaryDetector, .nvvidconv]
  simp only [removeElemProbeCb, ne_eq, not_true_eq_false, ↓reduceIte, Splice.removeProbe_pipeline,
    spliceInfo_mainElement, stopped.binRemove_of_mem child, Option.getD_some,
    spliceInfo_mainPrevElement, spliceInfo_mainNextElement]
  have erased : ∀ m, .filterBin m ∈ s.pipeline.children.erase (.filterBin n) → False :=
    fun m mem => by
      obtain ⟨apart, mem⟩ := (s.pipeline.children_nodup.mem_erase_iff).1 mem
      exact apart (congrArg _ (oneBin m n mem child))
  refine ⟨⟨⟨kept ?_, fun link mem => ?_, ?_, fun k running => ?_,
    fun _ m mem => erased m ?_⟩,
    fun armed mem => probes armed (List.mem_of_mem_erase mem)⟩, children, trivial⟩
  · simpa [stopped] using muxLinked
  · simp only [List.zip_cons_cons, List.tail_cons, List.zip_nil_right, List.mem_singleton,
      List.mem_cons, List.not_mem_nil, or_false] at added
    rcases added link mem with old | rfl
    · exact links link (List.mem_filter.1 old).1
    · exact .direct
  · simp only [children, Pipeline.removeChild_children]
    exact fun m k mem mem' => oneBin m k (List.mem_of_mem_erase mem) (List.mem_of_mem_erase mem')
  · simp only [state, children, Pipeline.removeChild_state, Pipeline.setState_state, stopped,
      Pipeline.removeChild_children, Pipeline.setState_children] at running ⊢
    split at running
    · cases running
    · next apart => exact (List.mem_erase_of_ne apart).2 (playing k running)
  · simpa [children, stopped] using mem

end Splices

end DeepStreamFpFilter.SpliceShape
