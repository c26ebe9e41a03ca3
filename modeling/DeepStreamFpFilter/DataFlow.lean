import DeepStreamFpFilter.SpliceShape

/-! The items that cross the splice point while a splice is in flight. The stream muxer
pushes the items of a stream; the primary detector and the filter bins hold what they accept
and push it on, in order, at any later step, each from its own thread; what reaches
`nvvideo-converter` is delivered. A push runs the probes of the `src` pad first; then the peer
`sink` pad takes the item, or refuses it when there is no peer (`GST_FLOW_NOT_LINKED`) or when
it has taken an EOS (`GST_FLOW_EOS`). Each probe callback runs as one step: no other thread
pushes between its GStreamer calls (`SplitAdd` takes `add_elem_probe_cb` apart). The splice
calls and every GStreamer call succeed: the faults are `Faults.none`. An item that is nowhere
in the pipeline is never delivered later, which turns the runs where a callback loses an item
into losses for good. The order is read along the line, from `nvvideo-converter` back: what
was delivered, what the filter bin holds, what the primary detector holds, what the muxer has
still to push; every step keeps that reading or drops items from it. -/

namespace DeepStreamFpFilter.DataFlow

open Gst DynamicLink

inductive Item where
  | buffer (n : Nat)
  | event (n : Nat)
  | eos
  deriving DecidableEq, Repr

def Item.kind : Item → ItemKind
  | .buffer _ => .buffer
  | .event _ => .event
  | .eos => .eos

structure Flow where
  splice : Splice
  upstream : List Item
  held : List (Elem × Item)
  eosed : List Elem
  delivered : List Item
  refused : List Item

namespace Flow

variable (f : Flow)

def setSplice (s : Splice) : Flow := { f with splice := s }

def enqueue (sink : Elem) (item : Item) : Flow :=
  { f with
    held := f.held ++ [(sink, item)]
    eosed := if item = .eos then f.eosed ++ [sink] else f.eosed }

def Refuses (sink : Elem) : Prop := f.splice.pipeline.state sink ≠ .playing ∨ sink ∈ f.eosed

instance (sink : Elem) : Decidable (f.Refuses sink) := inferInstanceAs (Decidable (_ ∨ _))

/-- `gst_pad_send_event` of the EOS `pad_probe_cb` injects into `bin`. -/
def injectEos (bin : Elem) : Flow := if f.Refuses bin then f else f.enqueue bin .eos

def handOn (e : Elem) (item : Item) : Flow :=
  match f.splice.pipeline.links.find? (·.1 == e) with
  | none => { f with refused := f.refused ++ [item] }
  | some (_, sink) =>
    if sink = .nvvidconv then { f with delivered := f.delivered ++ [item] }
    else if f.Refuses sink then { f with refused := f.refused ++ [item] }
    else f.enqueue sink item

/-- `gst_pad_push` of `item` on the `src` pad of `e`. -/
def push (e : Elem) (item : Item) : Flow :=
  let fired := fireProbes splice setSplice (fun bin f => injectEos f bin) Faults.none e item.kind
    (f.splice.probesOn e) f
  if fired.2 then fired.1 else fired.1.handOn e item

end Flow

inductive Event where
  | emit
  | forward (e : Elem)
  /-- `add_element_to_pipeline` for `bin` -/
  | add (bin : Elem)
  /-- `remove_element_from_pipeline` for `bin` -/
  | remove (bin : Elem)

def step (f : Flow) : Event → Flow
  | .emit =>
    match f.upstream with
    | [] => f
    | item :: rest => Flow.push { f with upstream := rest } .streammux item
  | .forward e =>
    match f.held.find? (·.1 == e) with
    | none => f
    | some (_, item) => Flow.push { f with held := f.held.erase (e, item) } e item
  | .add bin => f.setSplice (addElementToPipeline Faults.none (spliceInfo bin) f.splice).1
  | .remove bin => f.setSplice (removeElementFromPipeline Faults.none (spliceInfo bin) f.splice).1

def run (f : Flow) (events : List Event) : Flow := events.foldl step f

def start (serial : Option Nat) (stream : List Item) : Flow :=
  ⟨⟨mainPipeline serial, []⟩, stream, [], [], [], []⟩

def Carries (f : Flow) (item : Item) : Prop :=
  item ∈ f.upstream ∨ item ∈ f.held.map Prod.snd ∨ item ∈ f.delivered

instance (f : Flow) (item : Item) : Decidable (Carries f item) :=
  inferInstanceAs (Decidable (_ ∨ _ ∨ _))

variable {item : Item} {f : Flow}

theorem not_carries_enqueue (lost : ¬ Carries f item) {other : Item} (apart : other ≠ item)
    (sink : Elem) : ¬ Carries (f.enqueue sink other) item := by
  simp only [Carries, Flow.enqueue, List.map_append, List.mem_append, List.map_cons,
    List.map_nil, List.mem_singleton, not_or] at lost ⊢
  exact ⟨lost.1, ⟨lost.2.1, apart.symm⟩, lost.2.2⟩

theorem not_carries_injectEos (lost : ¬ Carries f item) (noEos : item ≠ .eos) (bin : Elem) :
    ¬ Carries (f.injectEos bin) item := by
  unfold Flow.injectEos
  split
  · exact lost
  · exact not_carries_enqueue lost (Ne.symm noEos) bin

theorem not_carries_handOn (lost : ¬ Carries f item) {other : Item} (apart : other ≠ item)
    (e : Elem) : ¬ Carries (f.handOn e other) item := by
  unfold Flow.handOn
  split
  · exact lost
  · split
    · simpa [Carries, apart.symm] using lost
    · split
      · exact lost
      · exact not_carries_enqueue lost apart _

theorem not_carries_push (lost : ¬ Carries f item) {other : Item} (apart : other ≠ item)
    (noEos : item ≠ .eos) (e : Elem) : ¬ Carries (f.push e other) item := by
  have fired := fireProbes_preserves Flow.splice Flow.setSplice (fun bin f => Flow.injectEos f bin)
    (fun f => ¬ Carries f item) (fun _ _ lost => lost)
    (fun bin _ lost => not_carries_injectEos lost noEos bin) Faults.none e other.kind
    (f.splice.probesOn e) f lost
  unfold Flow.push
  dsimp only
  split
  · exact fired
  · exact not_carries_handOn fired apart e

theorem not_carries_step (lost : ¬ Carries f item) (noEos : item ≠ .eos) :
    ∀ e, ¬ Carries (step f e) item
  | .emit => by
    cases up : f.upstream with
    | nil => simpa [step, up] using lost
    | cons next rest =>
      have apart : next ≠ item := fun same => lost (Or.inl (by simp [up, same]))
      simp only [step, up]
      refine not_carries_push (fun carried => lost ?_) apart noEos _
      obtain rest_mem | held | delivered := carried
      · exact Or.inl (by simp [up, rest_mem])
      · exact Or.inr (Or.inl held)
      · exact Or.inr (Or.inr delivered)
  | .forward e => by
    cases found : f.held.find? (·.1 == e) with
    | none => simpa [step, found] using lost
    | some next =>
      have mem := List.mem_of_find?_eq_some found
      have apart : next.2 ≠ item := fun same =>
        lost (Or.inr (Or.inl (same ▸ List.mem_map_of_mem _ mem)))
      simp only [step, found]
      refine not_carries_push (fun carried => lost ?_) apart noEos _
      obtain up | kept | delivered := carried
      · exact Or.inl up
      · exact Or.inr (Or.inl (((List.erase_sublist _ _).map _).subset kept))
      · exact Or.inr (Or.inr delivered)
  | .add _ | .remove _ => lost

theorem not_carries_run (lost : ¬ Carries f item) (noEos : item ≠ .eos) :
    ∀ events, ¬ Carries (run f events) item := by
  intro events
  induction events generalizing f with
  | nil => exact lost
  | cons e events ih => exact ih (not_carries_step lost noEos e)

/-- `add_elem_probe_cb` returns `GST_PAD_PROBE_DROP` for the item that fires it: a buffer
pushed after `add_element_to_pipeline` is dropped while the bin goes in, and is never
delivered. -/
theorem add_drops_triggering_item :
    Spliced (spliceInfo (.filterBin 1))
        (run (start none [.buffer 1]) [.add (.filterBin 1), .emit]).splice.pipeline ∧
      ∀ later, Item.buffer 1 ∉
        (run (start none [.buffer 1]) (.add (.filterBin 1) :: .emit :: later)).delivered := by
  have lost : ¬ Carries (run (start none [.buffer 1]) [.add (.filterBin 1), .emit])
      (.buffer 1) := by
    decide
  exact ⟨by decide, fun later delivered =>
    not_carries_run lost nofun later (Or.inr (Or.inr delivered))⟩

/-- `pad_probe_cb` removes the blocking probe and lets the item that fired it through: the
primary detector pushes it into the bin after the EOS, and the bin refuses it. -/
theorem remove_refuses_item_after_eos :
    (run (start (some 0) [.buffer 1])
        [.remove (.filterBin 0), .emit, .forward .primaryDetector]).refused = [.buffer 1] ∧
      Elem.filterBin 0 ∈ (run (start (some 0) [.buffer 1])
        [.remove (.filterBin 0), .emit, .forward .primaryDetector]).eosed ∧
      ∀ later, Item.buffer 1 ∉ (run (start (some 0) [.buffer 1])
        (.remove (.filterBin 0) :: .emit :: .forward .primaryDetector :: later)).delivered := by
  have lost : ¬ Carries (run (start (some 0) [.buffer 1])
      [.remove (.filterBin 0), .emit, .forward .primaryDetector]) (.buffer 1) := by
    decide
  exact ⟨by decide, by decide, fun later delivered =>
    not_carries_run lost nofun later (Or.inr (Or.inr delivered))⟩

open SpliceShape

namespace Flow

variable (f : Flow)

def queueOf (e : Elem) : List Item := (f.held.filter (·.1 == e)).map Prod.snd

def binItems : List Item := (f.held.filter (·.1.isFilterBin)).map Prod.snd

def lineup : List Item :=
  (f.delivered ++ f.binItems ++ f.queueOf .primaryDetector ++ f.upstream).filter (· ≠ .eos)

variable {f}

theorem lineup_eq : f.lineup =
    f.delivered.filter (· ≠ .eos) ++ f.binItems.filter (· ≠ .eos) ++
    (f.queueOf .primaryDetector).filter (· ≠ .eos) ++ f.upstream.filter (· ≠ .eos) := by
  simp only [lineup, List.filter_append]

@[simp] theorem enqueue_delivered (sink : Elem) (item : Item) :
    (f.enqueue sink item).delivered = f.delivered := rfl

@[simp] theorem enqueue_upstream (sink : Elem) (item : Item) :
    (f.enqueue sink item).upstream = f.upstream := rfl

@[simp] theorem binItems_deliver (items : List Item) :
    ({ f with delivered := items } : Flow).binItems = f.binItems := rfl

@[simp] theorem queueOf_deliver (items : List Item) (e : Elem) :
    ({ f with delivered := items } : Flow).queueOf e = f.queueOf e := rfl

@[simp] theorem binItems_pop (items : List Item) :
    ({ f with upstream := items } : Flow).binItems = f.binItems := rfl

@[simp] theorem queueOf_pop (items : List Item) (e : Elem) :
    ({ f with upstream := items } : Flow).queueOf e = f.queueOf e := rfl

@[simp] theorem queueOf_enqueue (sink e : Elem) (item : Item) :
    (f.enqueue sink item).queueOf e = f.queueOf e ++ if sink = e then [item] else [] := by
  by_cases same : sink = e <;> simp [queueOf, enqueue, same]

@[simp] theorem binItems_enqueue (sink : Elem) (item : Item) :
    (f.enqueue sink item).binItems = f.binItems ++ if sink.isFilterBin then [item] else [] := by
  cases bin : sink.isFilterBin <;> simp [binItems, enqueue, bin]

theorem binItems_eq_queueOf {bin : Elem} (same : ∀ x ∈ f.held, x.1.isFilterBin = (x.1 == bin)) :
    f.binItems = f.queueOf bin := by
  unfold binItems queueOf
  rw [List.filter_congr same]

theorem binItems_eq_nil (plain : ∀ x ∈ f.held, x.1.isFilterBin = false) : f.binItems = [] := by
  simpa [binItems, List.filter_eq_nil_iff] using plain

theorem held_split {e : Elem} {x : Elem × Item} (found : f.held.find? (·.1 == e) = some x) :
    x.1 = e ∧ ∃ pre post, f.held = pre ++ x :: post ∧ f.held.erase x = pre ++ post ∧
      ∀ c, f.queueOf c = if e = c then x.2 :: ({ f with held := pre ++ post } : Flow).queueOf c
        else ({ f with held := pre ++ post } : Flow).queueOf c := by
  obtain ⟨first, pre, post, split, apart⟩ := List.find?_eq_some.1 found
  obtain rfl : x.1 = e := by simpa using first
  have apart : ∀ y ∈ pre, y.1 ≠ x.1 := fun y mem => by simpa using apart y mem
  refine ⟨rfl, pre, post, split, ?_, fun c => ?_⟩
  · rw [split, List.erase_append_right _ fun mem => apart _ mem rfl, List.erase_cons_head]
  · by_cases same : x.1 = c
    · subst same
      have before : pre.filter (·.1 == x.1) = [] :=
        List.filter_eq_nil_iff.2 fun y mem => by simpa using apart y mem
      simp [queueOf, split, before]
    · simp [queueOf, split, same]

def SameLine (x f : Flow) : Prop :=
  x.delivered = f.delivered ∧ x.upstream = f.upstream ∧
    x.queueOf .primaryDetector = f.queueOf .primaryDetector ∧
    x.binItems.filter (· ≠ .eos) = f.binItems.filter (· ≠ .eos)

theorem SameLine.trans {x y : Flow} (first : SameLine x y) (second : SameLine y f) :
    SameLine x f :=
  ⟨first.1.trans second.1, first.2.1.trans second.2.1, first.2.2.1.trans second.2.2.1,
    first.2.2.2.trans second.2.2.2⟩

theorem sameLine_injectEos (n : Nat) : SameLine (f.injectEos (.filterBin n)) f := by
  unfold injectEos
  split
  · exact ⟨rfl, rfl, rfl, rfl⟩
  · simp [SameLine, Elem.isFilterBin]

end Flow

theorem mem_dropLast_cons {α : Type} {a x : α} {l : List α} (mem : x ∈ l.dropLast) :
    x ∈ (a :: l).dropLast := by
  cases l with
  | nil => simp at mem
  | cons b l => exact List.mem_cons_of_mem _ mem

structure Flow.Inv (f : Flow) : Prop where
  splice : SpliceShaped f.splice
  holders : ∀ x ∈ f.held, x.1 = .primaryDetector ∨
    ∃ n, x.1 = .filterBin n ∧ x.1 ∈ f.splice.pipeline.children
  eosed : ∀ e, .eos ∈ f.queueOf e → e ∈ f.eosed
  eosLast : ∀ e, .eos ∉ (f.queueOf e).dropLast

theorem inv_start (serial : Option Nat) (stream : List Item) : (start serial stream).Inv :=
  ⟨shaped_mainPipeline serial, nofun, fun _ => by simp [Flow.queueOf, start],
    fun _ => by simp [Flow.queueOf, start]⟩

theorem lineup_start (serial : Option Nat) (stream : List Item) :
    (start serial stream).lineup = stream.filter (· ≠ .eos) := by
  simp [Flow.lineup, Flow.binItems, Flow.queueOf, start]

section Steps

variable {f : Flow} (inv : f.Inv)
include inv

theorem Flow.Inv.binItems_eq {n : Nat} (child : .filterBin n ∈ f.splice.pipeline.children) :
    f.binItems = f.queueOf (.filterBin n) := by
  refine Flow.binItems_eq_queueOf fun x mem => ?_
  rcases inv.holders x mem with primary | ⟨m, bin, other⟩
  · simp [primary, Elem.isFilterBin]
  · rw [bin] at other ⊢
    simp [Elem.isFilterBin, inv.splice.pipeline.oneBin m n other child]

theorem Flow.Inv.binItems_nil (none_in : ∀ n, .filterBin n ∉ f.splice.pipeline.children) :
    f.binItems = [] := by
  refine Flow.binItems_eq_nil fun x mem => ?_
  rcases inv.holders x mem with primary | ⟨m, bin, child⟩
  · simp [primary, Elem.isFilterBin]
  · exact absurd (bin ▸ child) (none_in m)

theorem Flow.Inv.setSplice {s : Splice} (splice : SpliceShaped s)
    (kept : f.splice.pipeline.children ⊆ s.pipeline.children) : (f.setSplice s).Inv :=
  ⟨splice, fun x mem => (inv.holders x mem).imp_right fun ⟨n, same, child⟩ =>
    ⟨n, same, kept child⟩, inv.eosed, inv.eosLast⟩

theorem Flow.Inv.enqueue {sink : Elem} (accepts : ¬ f.Refuses sink)
    (holder : sink = .primaryDetector ∨
      ∃ n, sink = .filterBin n ∧ sink ∈ f.splice.pipeline.children)
    (item : Item) : (f.enqueue sink item).Inv := by
  have clear : .eos ∉ f.queueOf sink := fun mem => accepts (.inr (inv.eosed sink mem))
  refine ⟨inv.splice, fun x mem => ?_, fun e mem => ?_, fun e => ?_⟩
  · rcases List.mem_append.1 mem with old | new
    · exact inv.holders x old
    · exact List.mem_singleton.1 new ▸ holder
  · simp only [Flow.queueOf_enqueue, List.mem_append] at mem
    rcases mem with old | new
    · have taken := inv.eosed e old
      unfold Flow.enqueue
      split <;> simp [taken]
    · split at new
      · next same =>
        obtain rfl := List.mem_singleton.1 new
        simp [Flow.enqueue, same]
      · cases new
  · simp only [Flow.queueOf_enqueue]
    split
    · next same => rw [List.dropLast_concat]; exact same ▸ clear
    · rw [List.append_nil]; exact inv.eosLast e

theorem Flow.Inv.injectEos (n : Nat) : (f.injectEos (.filterBin n)).Inv := by
  unfold Flow.injectEos
  split
  · exact inv
  · next accepts =>
    have playing : f.splice.pipeline.state (.filterBin n) = .playing := by
      simpa [Flow.Refuses] using (not_or.1 accepts).1
    exact inv.enqueue accepts (.inr ⟨n, rfl, inv.splice.pipeline.playing n playing⟩) _

theorem Flow.Inv.refuse (items : List Item) : ({ f with refused := items } : Flow).Inv :=
  ⟨inv.splice, inv.holders, inv.eosed, inv.eosLast⟩

theorem Flow.Inv.fireMux (kind : ItemKind) :
    (fireProbes Flow.splice Flow.setSplice (fun bin f => f.injectEos bin) Faults.none .streammux
        kind (f.splice.probesOn .streammux) f).1.Inv ∧
      (fireProbes Flow.splice Flow.setSplice (fun bin f => f.injectEos bin) Faults.none
        .streammux kind (f.splice.probesOn .streammux) f).1.SameLine f := by
  refine fireProbes_induction Flow.splice Flow.setSplice (fun bin f => f.injectEos bin)
    (fun x => x.Inv ∧ x.SameLine f) _ _ _ _ (fun probe mem _ x ⟨xInv, same⟩ => ?_) f
    ⟨inv, rfl, rfl, rfl, rfl⟩
  cases inv.splice.probesOn mem with
  | addElem n =>
    obtain ⟨splice, kept, eos⟩ := addElemProbeCb_shaped xInv.splice n .streammux
    simp only [afterProbe, callProbe, eos]
    exact ⟨xInv.setSplice splice kept, same⟩
  | padProbe n =>
    obtain ⟨pipeline, splice, eos⟩ := padProbeCb_shaped xInv.splice n .streammux
    simp only [afterProbe, callProbe, eos]
    exact ⟨(xInv.setSplice splice (pipeline ▸ List.Subset.refl _)).injectEos n,
      (Flow.sameLine_injectEos n).trans same⟩

theorem Flow.Inv.push_streammux (item : Item) :
    (f.push .streammux item).Inv ∧ (f.push .streammux item).lineup.Sublist
      ((f.delivered ++ f.binItems ++ f.queueOf .primaryDetector ++ item :: f.upstream).filter
        (· ≠ .eos)) := by
  obtain ⟨firedInv, same⟩ := inv.fireMux item.kind
  have dropped : ∀ x : Flow, x.SameLine f → x.lineup.Sublist
      ((f.delivered ++ f.binItems ++ f.queueOf .primaryDetector ++ item :: f.upstream).filter
        (· ≠ .eos)) := fun x ⟨delivered, upstream, primary, bins⟩ => by
    rw [Flow.lineup_eq, delivered, upstream, primary, bins]
    simpa only [List.filter_append] using
      ((List.sublist_cons_self item f.upstream).filter _).append_left _
  unfold Flow.push
  dsimp only
  split
  · exact ⟨firedInv, dropped _ same⟩
  · rw [Flow.handOn, Pipeline.find?_linked firedInv.splice.pipeline.muxLinked]
    simp only [reduceCtorEq, ↓reduceIte]
    split
    · exact ⟨firedInv.refuse _, dropped _ same⟩
    · next accepts =>
      obtain ⟨delivered, upstream, primary, bins⟩ := same
      refine ⟨firedInv.enqueue accepts (.inl rfl) item, ?_⟩
      simp only [Flow.lineup_eq, Flow.binItems_enqueue, Flow.queueOf_enqueue,
        Flow.enqueue_delivered, Flow.enqueue_upstream, List.filter_append, delivered, upstream,
        primary, bins]
      by_cases eos : item = .eos <;> simp [Elem.isFilterBin, List.filter_cons, eos]

theorem Flow.Inv.step_emit : (step f .emit).Inv ∧ (step f .emit).lineup.Sublist f.lineup := by
  cases up : f.upstream with
  | nil =>
    simp only [step, up]
    exact ⟨inv, List.Sublist.refl _⟩
  | cons item rest =>
    have popped : ({ f with upstream := rest } : Flow).Inv :=
      ⟨inv.splice, inv.holders, inv.eosed, inv.eosLast⟩
    have pushed := popped.push_streammux item
    simp only [step, up]
    exact ⟨pushed.1, pushed.2.trans (by rw [Flow.lineup, up]; exact List.Sublist.refl _)⟩

theorem Flow.Inv.push_primaryDetector (item : Item) :
    (f.push .primaryDetector item).Inv ∧ (f.push .primaryDetector item).lineup.Sublist
      ((f.delivered ++ f.binItems ++ item :: f.queueOf .primaryDetector ++ f.upstream).filter
        (· ≠ .eos)) := by
  have dropped : f.lineup.Sublist
      ((f.delivered ++ f.binItems ++ item :: f.queueOf .primaryDetector ++ f.upstream).filter
        (· ≠ .eos)) :=
    List.Sublist.filter _ (by simpa only [List.append_assoc] using
      ((List.sublist_cons_self item _).append_right _).append_left (f.delivered ++ f.binItems))
  unfold Flow.push
  dsimp only
  rw [inv.splice.probesOn_primaryDetector]
  simp only [fireProbes, Bool.false_eq_true, ↓reduceIte]
  unfold Flow.handOn
  cases found : f.splice.pipeline.links.find? (·.1 == .primaryDetector) with
  | none => exact ⟨inv.refuse _, dropped⟩
  | some link =>
    obtain ⟨first, sink⟩ := link
    have mem := List.mem_of_find?_eq_some found
    obtain rfl : first = .primaryDetector := by simpa using List.find?_some found
    cases inv.splice.pipeline.links _ mem with
    | direct =>
      have bins := inv.binItems_nil (inv.splice.pipeline.direct mem)
      refine ⟨⟨inv.splice, inv.holders, inv.eosed, inv.eosLast⟩, ?_⟩
      by_cases eos : item = .eos <;> simp [Flow.lineup, bins, eos, List.filter_cons]
    | intoBin n =>
      simp only [reduceCtorEq, ↓reduceIte]
      split
      · exact ⟨inv.refuse _, dropped⟩
      · next accepts =>
        refine ⟨inv.enqueue accepts
          (.inr ⟨n, rfl, (f.splice.pipeline.links_children _ mem).2⟩) item, ?_⟩
        by_cases eos : item = .eos <;>
          simp [Flow.lineup, eos, List.filter_cons, Elem.isFilterBin]

theorem Flow.Inv.push_filterBin {n : Nat} (child : .filterBin n ∈ f.splice.pipeline.children)
    {item : Item} (drained : item = .eos → f.queueOf (.filterBin n) = []) :
    (f.push (.filterBin n) item).Inv ∧ (f.push (.filterBin n) item).lineup.Sublist
      ((f.delivered ++ item :: f.binItems ++ f.queueOf .primaryDetector ++ f.upstream).filter
        (· ≠ .eos)) := by
  have dropped : f.lineup.Sublist
      ((f.delivered ++ item :: f.binItems ++ f.queueOf .primaryDetector ++ f.upstream).filter
        (· ≠ .eos)) :=
    List.Sublist.filter _ (by simpa only [List.append_assoc] using
      ((List.sublist_cons_self item _).append_right _).append_left f.delivered)
  unfold Flow.push
  dsimp only
  rw [fireProbes_removeElem Flow.splice Flow.setSplice _ (fun _ => rfl) _ _ _ _ _
    (inv.splice.probesOn_filterBin n)]
  split
  · next fires =>
    have eos : item = .eos := by cases item <;> simp_all [Item.kind]
    obtain ⟨splice, -, -⟩ := removeElemProbeCb_shaped inv.splice n (.filterBin n) child
    refine ⟨⟨splice, fun x mem => .inl ?_, inv.eosed, inv.eosLast⟩, dropped⟩
    rcases inv.holders x mem with primary | ⟨m, bin, other⟩
    · exact primary
    · obtain rfl := inv.splice.pipeline.oneBin m n (bin ▸ other) child
      have held : x.2 ∈ f.queueOf (.filterBin m) :=
        List.mem_map_of_mem _ (List.mem_filter.2 ⟨mem, by simp [bin]⟩)
      rw [drained eos] at held
      cases held
  · simp only [Bool.false_eq_true, ↓reduceIte]
    unfold Flow.handOn
    cases found : f.splice.pipeline.links.find? (·.1 == .filterBin n) with
    | none => exact ⟨inv.refuse _, dropped⟩
    | some link =>
      obtain ⟨first, sink⟩ := link
      have mem := List.mem_of_find?_eq_some found
      obtain rfl : first = .filterBin n := by simpa using List.find?_some found
      cases inv.splice.pipeline.links _ mem with
      | outOfBin n =>
        refine ⟨⟨inv.splice, inv.holders, inv.eosed, inv.eosLast⟩, ?_⟩
        by_cases eos : item = .eos <;> simp [Flow.lineup, eos, List.filter_cons]

theorem Flow.Inv.erase {pre post : List (Elem × Item)} {e : Elem} {item : Item}
    (split : f.held = pre ++ (e, item) :: post)
    (queues : ∀ c, f.queueOf c =
      if e = c then item :: ({ f with held := pre ++ post } : Flow).queueOf c
      else ({ f with held := pre ++ post } : Flow).queueOf c) :
    ({ f with held := pre ++ post } : Flow).Inv := by
  refine ⟨inv.splice, fun x mem => inv.holders x ?_, fun c mem => inv.eosed c ?_, fun c => ?_⟩
  · rw [split]
    simp only [List.mem_append, List.mem_cons] at mem ⊢
    tauto
  · rw [queues c]
    split <;> simp [mem]
  · have last := inv.eosLast c
    rw [queues c] at last
    split at last
    · exact fun mem => last (mem_dropLast_cons mem)
    · exact last

theorem Flow.Inv.step_forward (e : Elem) :
    (step f (.forward e)).Inv ∧ (step f (.forward e)).lineup.Sublist f.lineup := by
  cases found : f.held.find? (·.1 == e) with
  | none =>
    simp only [step, found]
    exact ⟨inv, List.Sublist.refl _⟩
  | some x =>
    obtain ⟨first, item⟩ := x
    obtain ⟨rfl, pre, post, split, erased, queues⟩ := Flow.held_split found
    have popped := inv.erase split queues
    simp only [step, found, erased]
    rcases inv.holders _ (split ▸ List.mem_append_right _ (List.mem_cons_self _ _)) with
      primary | ⟨n, rfl, child⟩
    · obtain rfl : first = .primaryDetector := primary
      have bins : f.binItems = ({ f with held := pre ++ post } : Flow).binItems := by
        simp [Flow.binItems, split, Elem.isFilterBin]
      have line : f.lineup = ((f.delivered ++ f.binItems ++ f.queueOf .primaryDetector ++
          f.upstream).filter (· ≠ .eos)) := rfl
      rw [line, bins, queues, if_pos rfl]
      exact popped.push_primaryDetector item
    · have bins : f.binItems = item :: ({ f with held := pre ++ post } : Flow).binItems := by
        rw [inv.binItems_eq child, popped.binItems_eq child, queues, if_pos rfl]
      have drained : item = .eos →
          ({ f with held := pre ++ post } : Flow).queueOf (.filterBin n) = [] := by
        rintro rfl
        have last := inv.eosLast (.filterBin n)
        rw [queues, if_pos rfl] at last
        cases rest : ({ f with held := pre ++ post } : Flow).queueOf (.filterBin n) with
        | nil => rfl
        | cons next more => simp [rest] at last
      have line : f.lineup = ((f.delivered ++ f.binItems ++ f.queueOf .primaryDetector ++
          f.upstream).filter (· ≠ .eos)) := rfl
      rw [line, bins, queues, if_neg nofun]
      exact popped.push_filterBin child drained

end Steps

/-- Whether an event that asks for a splice names a filter bin, as `enable_fpfilter` and
`disable_fpfilter` do. -/
def Event.namesFilterBin : Event → Bool
  | .add bin | .remove bin => bin.isFilterBin
  | _ => true

section Run

variable {f : Flow} (inv : f.Inv)
include inv

theorem Flow.Inv.step {e : Event} (named : e.namesFilterBin) :
    (step f e).Inv ∧ (step f e).lineup.Sublist f.lineup := by
  cases e with
  | emit => exact inv.step_emit
  | forward e => exact inv.step_forward e
  | add bin =>
    cases bin <;> simp only [Event.namesFilterBin, Elem.isFilterBin, Bool.false_eq_true] at named
    exact ⟨inv.setSplice (inv.splice.addProbe (.addElem _)) (List.Subset.refl _),
      List.Sublist.refl _⟩
  | remove bin =>
    cases bin <;> simp only [Event.namesFilterBin, Elem.isFilterBin, Bool.false_eq_true] at named
    exact ⟨inv.setSplice (inv.splice.addProbe (.padProbe _)) (List.Subset.refl _),
      List.Sublist.refl _⟩

theorem Flow.Inv.run (events : List Event) (named : ∀ e ∈ events, e.namesFilterBin) :
    (run f events).Inv ∧ (run f events).lineup.Sublist f.lineup := by
  induction events generalizing f with
  | nil => exact ⟨inv, List.Sublist.refl _⟩
  | cons e events ih =>
    obtain ⟨stepped, shorter⟩ := inv.step (named e (List.mem_cons_self _ _))
    obtain ⟨ran, shortest⟩ := ih stepped fun e mem => named e (List.mem_cons_of_mem _ mem)
    exact ⟨ran, shortest.trans shorter⟩

end Run

theorem delivered_in_stream_order (serial : Option Nat) (stream : List Item)
    (events : List Event) (named : ∀ e ∈ events, e.namesFilterBin) :
    ((run (start serial stream) events).delivered.filter (· ≠ .eos)).Sublist
      (stream.filter (· ≠ .eos)) := by
  have ordered := ((inv_start serial stream).run events named).2
  rw [lineup_start, Flow.lineup, List.filter_append, List.filter_append, List.filter_append]
    at ordered
  exact (List.sublist_append_left _ _).trans
    (((List.sublist_append_left _ _).append_right _).trans
      ((List.sublist_append_left _ _).trans ordered))

theorem delivered_in_stream_order_toggle :
    (∀ e ∈ [Event.remove (.filterBin 0), .emit, .forward .primaryDetector, .add (.filterBin 1),
      .emit, .forward .primaryDetector], e.namesFilterBin) ∧
    ((run (start (some 0) [.buffer 1, .event 2])
        [.remove (.filterBin 0), .emit, .forward .primaryDetector, .add (.filterBin 1), .emit,
          .forward .primaryDetector]).delivered.filter (· ≠ .eos)).Sublist
      ([Item.buffer 1, .event 2].filter (· ≠ .eos)) :=
  ⟨by decide, delivered_in_stream_order _ _ _ (by decide)⟩

end DeepStreamFpFilter.DataFlow
