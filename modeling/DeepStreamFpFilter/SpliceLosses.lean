import DeepStreamFpFilter.DataFlow

/-! What the splice loses. Every buffer and event of the stream is delivered, held by an
element, still to come, or refused (by a `sink` pad, or for want of a peer), save those
`add_elem_probe_cb` drops: at most one for each `add_element_to_pipeline`, whatever the
interleaving. The count is carried by the armed adds: a callback of a removal leaves them alone
and drops only an EOS, and an `add_elem_probe_cb` takes its own probe with the item it drops.
With no removal, and each callback one step, nothing is refused, so along the line only the
items the adds drop are missing; with no splice request at all the line is the stream. -/

namespace DeepStreamFpFilter.DataFlow

open Gst DynamicLink SpliceShape

def Event.asksSplice : Event → Bool
  | .add _ | .remove _ => true
  | _ => false

def Event.isAdd : Event → Bool
  | .add _ => true
  | _ => false

def Event.isRemove : Event → Bool
  | .remove _ => true
  | _ => false

theorem Item.kind_eq_eos {item : Item} : item.kind = .eos ↔ item = .eos := by
  cases item <;> simp [Item.kind]

namespace Flow

variable (f : Flow)

def items : List Item := f.delivered ++ f.held.map Prod.snd ++ f.upstream ++ f.refused

def dataCount : Nat := (f.items.filter (· ≠ .eos)).length

variable {f}

@[simp] theorem setSplice_splice (s : Splice) : (f.setSplice s).splice = s := rfl

@[simp] theorem dataCount_setSplice (s : Splice) : (f.setSplice s).dataCount = f.dataCount :=
  rfl

theorem dataCount_pop {item : Item} {rest : List Item} (up : f.upstream = item :: rest) :
    f.dataCount = ({ f with upstream := rest } : Flow).dataCount +
      if item = .eos then 0 else 1 := by
  by_cases eos : item = .eos
  · simp [dataCount, items, up, eos]
  · simp [dataCount, items, up, eos, List.filter_append]
    omega

theorem injectEos_splice (bin : Elem) : (f.injectEos bin).splice = f.splice := by
  unfold injectEos
  split <;> rfl

theorem dataCount_injectEos (bin : Elem) : (f.injectEos bin).dataCount = f.dataCount := by
  unfold injectEos
  split
  · rfl
  · simp [dataCount, items, enqueue, List.filter_append]

theorem handOn_splice (e : Elem) (item : Item) : (f.handOn e item).splice = f.splice := by
  unfold handOn
  split
  · rfl
  · split
    · rfl
    · split <;> rfl

theorem dataCount_deliver (item : Item) :
    ({ f with delivered := f.delivered ++ [item] } : Flow).dataCount =
      f.dataCount + if item = .eos then 0 else 1 := by
  by_cases eos : item = .eos
  · simp [dataCount, items, eos]
  · simp [dataCount, items, eos, List.filter_append]
    omega

theorem dataCount_refuse (item : Item) :
    ({ f with refused := f.refused ++ [item] } : Flow).dataCount =
      f.dataCount + if item = .eos then 0 else 1 := by
  by_cases eos : item = .eos
  · simp [dataCount, items, eos]
  · simp [dataCount, items, eos, List.filter_append]
    omega

theorem dataCount_enqueue (sink : Elem) (item : Item) :
    (f.enqueue sink item).dataCount = f.dataCount + if item = .eos then 0 else 1 := by
  by_cases eos : item = .eos
  · simp [dataCount, items, enqueue, eos]
  · simp [dataCount, items, enqueue, eos, List.filter_append]
    omega

theorem dataCount_handOn (e : Elem) (item : Item) :
    (f.handOn e item).dataCount = f.dataCount + if item = .eos then 0 else 1 := by
  unfold handOn
  split
  · exact dataCount_refuse item
  · split
    · exact dataCount_deliver item
    · split
      · exact dataCount_refuse item
      · exact dataCount_enqueue _ item

theorem dataCount_erase {pre post : List (Elem × Item)} {x : Elem × Item}
    (split : f.held = pre ++ x :: post) :
    f.dataCount = ({ f with held := pre ++ post } : Flow).dataCount +
      if x.2 = .eos then 0 else 1 := by
  by_cases eos : x.2 = .eos
  · simp [dataCount, items, split, List.filter_append, List.filter_cons, eos]
  · simp [dataCount, items, split, List.filter_append, List.filter_cons, eos]
    omega

theorem afterProbe_injectEos (x : Flow) (r : ProbeResult) :
    (afterProbe Flow.setSplice (fun bin f => f.injectEos bin) x r).dataCount = x.dataCount ∧
      (afterProbe Flow.setSplice (fun bin f => f.injectEos bin) x r).splice = r.splice := by
  unfold afterProbe
  split
  · exact ⟨dataCount_injectEos _, injectEos_splice _⟩
  · exact ⟨rfl, rfl⟩

theorem fire_dataCount (pad : Elem) (item : Item) : ∀ (probes : List Probe) (x : Flow),
    (∀ probe ∈ probes, probe.removes = false → (pad, probe) ∈ x.splice.probes) →
    let fired := fireProbes Flow.splice Flow.setSplice (fun bin f => f.injectEos bin)
      Faults.none pad item.kind probes x
    fired.1.dataCount = x.dataCount ∧
      fired.1.splice.armedAdds.length + (if fired.2 ∧ item ≠ .eos then 1 else 0) ≤
        x.splice.armedAdds.length
  | [], x, _ => by simp [fireProbes]
  | probe :: rest, x, present => by
    have later := fire_dataCount pad item rest
    rw [fireProbes_cons]
    split
    · cases removes : probe.removes
      · obtain ⟨drop, eos, fewer⟩ := callProbe_adds Faults.none pad item.kind x.splice probe
          removes (present _ (List.mem_cons_self _ _) removes)
        simp only [drop, ↓reduceIte, afterProbe, eos]
        refine ⟨rfl, ?_⟩
        show (callProbe Faults.none pad item.kind probe x.splice).splice.armedAdds.length + _ ≤ _
        split <;> omega
      · obtain ⟨armed, eosOnly⟩ :=
          callProbe_removes Faults.none pad item.kind x.splice probe removes
        obtain ⟨count, splice⟩ := afterProbe_injectEos x
          (callProbe Faults.none pad item.kind probe x.splice)
        split
        · next dropped =>
          have eos := Item.kind_eq_eos.1 (eosOnly dropped)
          refine ⟨count, ?_⟩
          rw [splice, armed]
          simp [eos]
        · obtain ⟨kept, fewer⟩ := later _ fun other mem adds => by
            have armedOther : (pad, other) ∈ x.splice.armedAdds :=
              List.mem_filter.2 ⟨present other (List.mem_cons_of_mem _ mem) adds, by simp [adds]⟩
            rw [← armed, ← splice] at armedOther
            exact (List.mem_filter.1 armedOther).1
          rw [splice, armed] at fewer
          exact ⟨kept.trans count, fewer⟩
    · exact later x fun other mem => present other (List.mem_cons_of_mem _ mem)

theorem push_dataCount (e : Elem) (item : Item) :
    (f.push e item).splice.armedAdds.length + f.dataCount + (if item = .eos then 0 else 1) ≤
      f.splice.armedAdds.length + (f.push e item).dataCount := by
  obtain ⟨count, fewer⟩ := fire_dataCount e item (f.splice.probesOn e) f
    fun _ mem _ => Splice.mem_probesOn.1 mem
  unfold push
  dsimp only
  split
  · next dropped =>
    rw [count]
    by_cases eos : item = .eos <;> simp [dropped, eos] at fewer ⊢ <;> omega
  · next kept =>
    rw [dataCount_handOn, handOn_splice, count]
    simp only [kept, false_and, ↓reduceIte, Nat.add_zero] at fewer
    omega

end Flow

def Conserves (stream : List Item) (adds : Nat) (f : Flow) : Prop :=
  (stream.filter (· ≠ .eos)).length + f.splice.armedAdds.length ≤ f.dataCount + adds

theorem conserves_start (serial : Option Nat) (stream : List Item) :
    Conserves stream 0 (start serial stream) := by
  simp [Conserves, start, Flow.dataCount, Flow.items, Splice.armedAdds]

section Conserves

variable {stream : List Item} {adds : Nat} {f : Flow} (conserves : Conserves stream adds f)
include conserves

theorem Conserves.step : ∀ e, Conserves stream (adds + if e.isAdd then 1 else 0) (step f e)
  | .emit => by
    cases up : f.upstream with
    | nil => simpa [DataFlow.step, up, Event.isAdd] using conserves
    | cons item rest =>
      have pushed := Flow.push_dataCount (f := { f with upstream := rest }) .streammux item
      have popped := Flow.dataCount_pop up
      dsimp only at pushed
      simp only [Conserves, DataFlow.step, up, Event.isAdd, Bool.false_eq_true, ↓reduceIte,
        Nat.add_zero] at conserves ⊢
      omega
  | .forward e => by
    cases found : f.held.find? (·.1 == e) with
    | none => simpa [DataFlow.step, found, Event.isAdd] using conserves
    | some x =>
      obtain ⟨rfl, pre, post, split, erased, -⟩ := Flow.held_split found
      have pushed := Flow.push_dataCount (f := { f with held := pre ++ post }) x.1 x.2
      have popped := Flow.dataCount_erase split
      dsimp only at pushed
      simp only [Conserves, DataFlow.step, found, erased, Event.isAdd, Bool.false_eq_true,
        ↓reduceIte, Nat.add_zero] at conserves ⊢
      omega
  | .add _ | .remove _ => by
    simp [Conserves, DataFlow.step, Event.isAdd, addElementToPipeline,
      removeElementFromPipeline, armBlockProbe, Probe.removes] at conserves ⊢
    omega

theorem Conserves.run (events : List Event) :
    Conserves stream (adds + events.countP (·.isAdd)) (run f events) := by
  induction events generalizing f adds with
  | nil => simpa using conserves
  | cons e events ih =>
    have later := ih (conserves.step e)
    rw [List.countP_cons, Nat.add_comm (List.countP _ _), ← Nat.add_assoc]
    exact later

end Conserves

theorem lost_items_at_most_adds (serial : Option Nat) (stream : List Item)
    (events : List Event) :
    (stream.filter (· ≠ .eos)).length ≤
      ((run (start serial stream) events).items.filter (· ≠ .eos)).length +
        events.countP (·.isAdd) := by
  have conserves := (conserves_start serial stream).run events
  simp only [Conserves, Nat.zero_add] at conserves
  exact le_trans (Nat.le_add_right _ _) conserves

structure Feeds (p : Pipeline) : Prop where
  primary : p.state .primaryDetector = .playing
  routed : p.Linked .primaryDetector .nvvidconv ∨ ∃ n, Spliced (spliceInfo (.filterBin n)) p
  spliced : ∀ n, .filterBin n ∈ p.children → Spliced (spliceInfo (.filterBin n)) p

theorem feeds_mainPipeline (serial : Option Nat) : Feeds (mainPipeline serial) := by
  have spliced : ∀ n, serial = some n →
      Spliced (spliceInfo (.filterBin n)) (mainPipeline serial) := by
    rintro n rfl
    simp [Spliced, mainPipeline_children, mainPipeline_state, mainPipeline_some_links,
      Pipeline.Linked, mainChain]
  refine ⟨by simp [mainPipeline_state, mainChain], ?_, fun n child => spliced n ?_⟩
  · cases serial with
    | none => exact .inl (by simp [Pipeline.Linked, mainPipeline_none_links])
    | some n => exact .inr ⟨n, spliced n rfl⟩
  · cases serial <;> simp_all [mainPipeline_children, mainChain]

theorem Feeds.addElemProbeCb {s : Splice} (feeds : Feeds s.pipeline) (shaped : Shaped s.pipeline)
    (n : Nat) (pad : Elem) :
    Feeds (addElemProbeCb Faults.none (spliceInfo (.filterBin n)) pad s).splice.pipeline := by
  rcases feeds.routed with direct | ⟨m, spliced⟩
  · have fresh := shaped.no_bins_of_direct direct (n := n)
    obtain ⟨-, -, -, children, spliced⟩ := addElemProbeCb_bypassed (s := s) pad
      (show Bypassed (spliceInfo (.filterBin n)) s.pipeline from
        ⟨fun mem => fresh _ mem rfl, direct⟩) fresh
    refine ⟨?_, .inr ⟨n, spliced⟩, fun k child => ?_⟩
    · rw [addElemProbeCb_state _ pad (by simp)]
      exact feeds.primary
    · rw [children] at child
      rcases List.mem_cons.1 child with same | old
      · obtain rfl : k = n := by simpa using same
        exact spliced
      · exact absurd old (shaped.direct direct k)
  · have apart : ¬ s.pipeline.Linked .primaryDetector .nvvidconv :=
      fun direct => shaped.direct direct m spliced.1
    rw [addElemProbeCb_name_taken pad (show ∃ x ∈ s.pipeline.children,
      x.name = (spliceInfo (.filterBin n)).mainElement.name from ⟨_, spliced.1, rfl⟩) apart]
    exact feeds

structure Flow.Feeding (f : Flow) : Prop where
  inv : f.Inv
  adding : ∀ armed ∈ f.splice.probes, armed.2.removes = false
  feeds : Feeds f.splice.pipeline
  eosed : f.eosed = []
  refused : f.refused = []
  delivered : Item.eos ∉ f.delivered
  upstream : Item.eos ∉ f.upstream

theorem feeding_start (serial : Option Nat) {stream : List Item} (noEos : Item.eos ∉ stream) :
    (start serial stream).Feeding :=
  ⟨inv_start serial stream, fun _ mem => absurd mem (List.not_mem_nil _),
    feeds_mainPipeline serial, rfl, rfl, List.not_mem_nil _, noEos⟩

section Feeding

variable {f : Flow} (feeding : f.Feeding)
include feeding

theorem Flow.Feeding.probesOn_other {pad : Elem} (apart : pad ≠ .streammux) :
    f.splice.probesOn pad = [] :=
  List.eq_nil_iff_forall_not_mem.2 fun _ mem => by
    have adds := feeding.adding _ (Splice.mem_probesOn.1 mem)
    cases feeding.inv.splice.probesOn mem with
    | addElem n => exact apart rfl
    | padProbe n | removeElem n => cases adds

theorem Flow.Feeding.probesOn_streammux {probe : Probe}
    (mem : probe ∈ f.splice.probesOn .streammux) :
    ∃ n, probe = .addElem (spliceInfo (.filterBin n)) := by
  have adds := feeding.adding _ (Splice.mem_probesOn.1 mem)
  cases feeding.inv.splice.probesOn mem with
  | addElem n => exact ⟨n, rfl⟩
  | padProbe n => cases adds

theorem Flow.Feeding.held_data {x : Elem × Item} (mem : x ∈ f.held) : x.2 ≠ .eos := fun eos =>
  List.not_mem_nil x.1 (feeding.eosed ▸ feeding.inv.eosed x.1
    (eos ▸ List.mem_map_of_mem _ (List.mem_filter.2 ⟨mem, by simp⟩)))

theorem Flow.Feeding.push_taken {e sink : Elem} (unprobed : f.splice.probesOn e = [])
    (linked : f.splice.pipeline.Linked e sink)
    (playing : sink ≠ .nvvidconv → f.splice.pipeline.state sink = .playing) (item : Item) :
    f.push e item =
      if sink = .nvvidconv then { f with delivered := f.delivered ++ [item] }
      else f.enqueue sink item := by
  simp only [Flow.push, unprobed, fireProbes, Bool.false_eq_true, ↓reduceIte, Flow.handOn,
    Pipeline.find?_linked linked]
  split
  · rfl
  · next apart =>
    rw [if_neg]
    simp [Flow.Refuses, playing apart, feeding.eosed]

theorem Flow.Feeding.deliver {item : Item} (data : item ≠ .eos)
    (inv : ({ f with delivered := f.delivered ++ [item] } : Flow).Inv) :
    ({ f with delivered := f.delivered ++ [item] } : Flow).Feeding :=
  ⟨inv, feeding.adding, feeding.feeds, feeding.eosed, feeding.refused,
    by simp [feeding.delivered, Ne.symm data], feeding.upstream⟩

theorem Flow.Feeding.enqueue {sink : Elem} {item : Item} (data : item ≠ .eos)
    (inv : (f.enqueue sink item).Inv) : (f.enqueue sink item).Feeding :=
  ⟨inv, feeding.adding, feeding.feeds, by simp [Flow.enqueue, data, feeding.eosed],
    feeding.refused, feeding.delivered, feeding.upstream⟩

theorem Flow.Feeding.line_data :
    ∀ item ∈ f.delivered ++ f.binItems ++ f.queueOf .primaryDetector ++ f.upstream,
      item ≠ .eos := by
  rintro item mem rfl
  simp only [List.mem_append, Flow.binItems, Flow.queueOf, List.mem_map, List.mem_filter] at mem
  rcases mem with ((delivered | ⟨x, ⟨held, -⟩, eos⟩) | ⟨x, ⟨held, -⟩, eos⟩) | upstream
  · exact feeding.delivered delivered
  · exact feeding.held_data held eos
  · exact feeding.held_data held eos
  · exact feeding.upstream upstream

theorem Flow.Feeding.step_emit : (step f .emit).Feeding := by
  have inv := (feeding.inv.step (e := .emit) rfl).1
  cases up : f.upstream with
  | nil => simpa [DataFlow.step, up] using feeding
  | cons item rest =>
    have data : item ≠ .eos := fun eos => feeding.upstream (by simp [up, eos])
    have clean : Item.eos ∉ rest := fun mem => feeding.upstream (by simp [up, mem])
    have popped : ({ f with upstream := rest } : Flow).Feeding :=
      ⟨⟨feeding.inv.splice, feeding.inv.holders, feeding.inv.eosed, feeding.inv.eosLast⟩,
        feeding.adding, feeding.feeds, feeding.eosed, feeding.refused, feeding.delivered, clean⟩
    simp only [DataFlow.step, up] at inv ⊢
    cases probes : f.splice.probesOn .streammux with
    | nil =>
      rw [popped.push_taken probes feeding.inv.splice.pipeline.muxLinked
        (fun _ => feeding.feeds.primary), if_neg nofun] at inv ⊢
      exact popped.enqueue data inv
    | cons probe others =>
      obtain ⟨n, rfl⟩ := feeding.probesOn_streammux (probes ▸ List.mem_cons_self _ _)
      obtain ⟨drop, eos, erased⟩ :=
        addElemProbeCb_drops Faults.none (spliceInfo (.filterBin n)) .streammux f.splice
      have fired : Flow.push { f with upstream := rest } .streammux item =
          ({ f with upstream := rest } : Flow).setSplice (addElemProbeCb Faults.none
            (spliceInfo (.filterBin n)) .streammux f.splice).splice := by
        simp only [Flow.push, probes, fireProbes_cons, Probe.sees, callProbe, drop, ↓reduceIte,
          afterProbe, eos]
      rw [fired] at inv ⊢
      exact ⟨inv, fun armed mem => feeding.adding armed (List.mem_of_mem_erase (erased ▸ mem)),
        feeding.feeds.addElemProbeCb feeding.inv.splice.pipeline n .streammux, feeding.eosed,
        feeding.refused, feeding.delivered, clean⟩

theorem Flow.Feeding.step_forward (e : Elem) : (step f (.forward e)).Feeding := by
  have inv := (feeding.inv.step (e := .forward e) rfl).1
  cases found : f.held.find? (·.1 == e) with
  | none => simpa [DataFlow.step, found] using feeding
  | some x =>
    obtain ⟨rfl, pre, post, split, erased, queues⟩ := Flow.held_split found
    have mem : x ∈ f.held := split ▸ List.mem_append_right _ (List.mem_cons_self _ _)
    have data := feeding.held_data mem
    have popped : ({ f with held := pre ++ post } : Flow).Feeding :=
      ⟨feeding.inv.erase split queues, feeding.adding, feeding.feeds, feeding.eosed,
        feeding.refused, feeding.delivered, feeding.upstream⟩
    simp only [DataFlow.step, found, erased] at inv ⊢
    rcases feeding.inv.holders x mem with primary | ⟨n, bin, child⟩
    · rw [primary] at inv ⊢
      have unprobed : ({ f with held := pre ++ post } : Flow).splice.probesOn .primaryDetector =
          [] := popped.probesOn_other nofun
      rcases feeding.feeds.routed with direct | ⟨n, spliced⟩
      · rw [popped.push_taken unprobed direct nofun, if_pos rfl] at inv ⊢
        exact popped.deliver data inv
      · have into : f.splice.pipeline.Linked .primaryDetector (.filterBin n) := spliced.2.2.1
        rw [popped.push_taken unprobed into fun _ => spliced.2.1, if_neg nofun] at inv ⊢
        exact popped.enqueue data inv
    · rw [bin] at inv child ⊢
      have spliced := feeding.feeds.spliced n child
      have unprobed : ({ f with held := pre ++ post } : Flow).splice.probesOn (.filterBin n) =
          [] := popped.probesOn_other nofun
      have out : f.splice.pipeline.Linked (.filterBin n) .nvvidconv := spliced.2.2.2
      rw [popped.push_taken unprobed out nofun, if_pos rfl] at inv ⊢
      exact popped.deliver data inv

theorem Flow.Feeding.step {e : Event} (named : e.namesFilterBin) (kept : e.isRemove = false) :
    (step f e).Feeding := by
  cases e with
  | emit => exact feeding.step_emit
  | forward e => exact feeding.step_forward e
  | add bin =>
    have inv := (feeding.inv.step named).1
    refine ⟨inv, fun armed mem => ?_, feeding.feeds, feeding.eosed, feeding.refused,
      feeding.delivered, feeding.upstream⟩
    simp only [DataFlow.step, addElementToPipeline, armBlockProbe, Faults.none_missingPad,
      Bool.false_eq_true, ↓reduceIte, Flow.setSplice, Splice.addProbe_probes,
      List.mem_append, List.mem_singleton] at mem
    rcases mem with old | rfl
    · exact feeding.adding armed old
    · rfl
  | remove bin => cases kept

theorem Flow.Feeding.run (events : List Event) (named : ∀ e ∈ events, e.namesFilterBin)
    (kept : ∀ e ∈ events, e.isRemove = false) : (run f events).Feeding := by
  induction events generalizing f with
  | nil => exact feeding
  | cons e events ih =>
    exact ih (feeding.step (named e (List.mem_cons_self _ _)) (kept e (List.mem_cons_self _ _)))
      (fun e mem => named e (List.mem_cons_of_mem _ mem))
      (fun e mem => kept e (List.mem_cons_of_mem _ mem))

end Feeding

theorem length_filter_held (p : Item → Bool) : ∀ held : List (Elem × Item),
    (∀ x ∈ held, x.1 = .primaryDetector ∨ x.1.isFilterBin) →
    ((held.map Prod.snd).filter p).length =
      (((held.filter (·.1.isFilterBin)).map Prod.snd).filter p).length +
        (((held.filter (·.1 == .primaryDetector)).map Prod.snd).filter p).length
  | [], _ => rfl
  | x :: rest, holders => by
    have later := length_filter_held p rest fun y mem => holders y (List.mem_cons_of_mem _ mem)
    rcases holders x (List.mem_cons_self _ _) with primary | bin
    · by_cases kept : p x.2
      · simp [List.filter_cons, primary, Elem.isFilterBin, kept, later]
        omega
      · simp [List.filter_cons, primary, Elem.isFilterBin, kept, later]
    · have other : (x.1 == .primaryDetector) = false := by
        cases first : x.1 <;> simp_all [Elem.isFilterBin]
      by_cases kept : p x.2
      · simp [List.filter_cons, bin, other, kept, later]
        omega
      · simp [List.filter_cons, bin, other, kept, later]

theorem Flow.Inv.dataCount_eq {f : Flow} (inv : f.Inv) (refused : f.refused = []) :
    f.dataCount = f.lineup.length := by
  have holders : ∀ x ∈ f.held, x.1 = .primaryDetector ∨ x.1.isFilterBin := fun x mem =>
    (inv.holders x mem).imp_right fun ⟨n, bin, _⟩ => by simp [bin, Elem.isFilterBin]
  simp only [Flow.dataCount, Flow.items, Flow.lineup, Flow.binItems, Flow.queueOf, refused,
    List.append_nil, List.filter_append, List.length_append, length_filter_held _ _ holders]
  omega

theorem delivered_whole_without_splices (serial : Option Nat) (stream : List Item)
    (noEos : Item.eos ∉ stream) (events : List Event)
    (noSplice : ∀ e ∈ events, e.asksSplice = false) :
    (run (start serial stream) events).refused = [] ∧
      (run (start serial stream) events).delivered ++ (run (start serial stream) events).binItems ++
        (run (start serial stream) events).queueOf .primaryDetector ++
        (run (start serial stream) events).upstream = stream := by
  have quiet : ∀ e ∈ events, e.namesFilterBin ∧ e.isRemove = false ∧ e.isAdd = false :=
    fun e mem => by
      have asks := noSplice e mem
      cases e <;> simp_all [Event.asksSplice, Event.namesFilterBin, Event.isRemove, Event.isAdd]
  have feeding := (feeding_start serial noEos).run events (fun e mem => (quiet e mem).1)
    fun e mem => (quiet e mem).2.1
  have ordered := ((inv_start serial stream).run events fun e mem => (quiet e mem).1).2
  have conserves := (conserves_start serial stream).run events
  have clean : stream.filter (· ≠ .eos) = stream :=
    List.filter_eq_self.2 fun item mem => decide_eq_true fun eos => noEos (eos ▸ mem)
  have noAdds : events.countP (·.isAdd) = 0 :=
    List.countP_eq_zero.2 fun e mem => by simp [(quiet e mem).2.2]
  rw [lineup_start, clean] at ordered
  rw [Conserves, clean, Nat.zero_add, noAdds,
    feeding.inv.dataCount_eq feeding.refused] at conserves
  have whole := ordered.eq_of_length_le (by omega)
  exact ⟨feeding.refused, (List.filter_eq_self.2 fun item mem =>
    decide_eq_true (feeding.line_data item mem)).symm.trans whole⟩

theorem delivered_whole_without_splices_interleaved :
    Item.eos ∉ [Item.buffer 1, .event 2, .buffer 3] ∧
    (∀ e ∈ [Event.emit, .emit, .forward .primaryDetector, .emit, .forward (.filterBin 0)],
      e.asksSplice = false) ∧
    (run (start (some 0) [.buffer 1, .event 2, .buffer 3])
        [.emit, .emit, .forward .primaryDetector, .emit, .forward (.filterBin 0)]).refused = [] ∧
    (run (start (some 0) [.buffer 1, .event 2, .buffer 3])
        [.emit, .emit, .forward .primaryDetector, .emit, .forward (.filterBin 0)]).delivered ++
      (run (start (some 0) [.buffer 1, .event 2, .buffer 3])
        [.emit, .emit, .forward .primaryDetector, .emit, .forward (.filterBin 0)]).binItems ++
      (run (start (some 0) [.buffer 1, .event 2, .buffer 3])
        [.emit, .emit, .forward .primaryDetector, .emit, .forward (.filterBin 0)]).queueOf
          .primaryDetector ++
      (run (start (some 0) [.buffer 1, .event 2, .buffer 3])
        [.emit, .emit, .forward .primaryDetector, .emit, .forward (.filterBin 0)]).upstream =
      [.buffer 1, .event 2, .buffer 3] :=
  ⟨by decide, by decide, delivered_whole_without_splices _ _ (by decide) _ (by decide)⟩

end DeepStreamFpFilter.DataFlow
