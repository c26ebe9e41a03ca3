import Mathlib.Data.List.Nodup

/-! The part of the DeepStream pipeline that the splice of `ds_dynamic_link_unlink_element.c`
touches: the elements around the splice point, the filter bins, the links between their
static `src` and `sink` pads, and the element states. The GStreamer calls are modelled as
GStreamer makes them succeed or fail: `gst_bin_add` refuses an element whose name a child
already has, `gst_pad_unlink` fails on pads not linked to each other, and a link needs two
free pads of children of the bin. `Faults` adds failures for causes outside the model. The
other elements of the pipeline, which the splice never touches, are left out. -/

namespace DeepStreamFpFilter.Gst

inductive Elem where
  | streammux
  | primaryDetector
  | nvvidconv
  /-- the `n`-th bin made by `create_filter_elements_bin ("fp-filter-bin")` -/
  | filterBin (serial : Nat)
  deriving DecidableEq, Repr

def Elem.name : Elem → String
  | .streammux => "stream-muxer"
  | .primaryDetector => "primary-nvinference-engine1"
  | .nvvidconv => "nvvideo-converter"
  | .filterBin _ => "fp-filter-bin"

def Elem.isFilterBin : Elem → Bool
  | .filterBin _ => true
  | _ => false

inductive GstState where
  | null
  | playing
  deriving DecidableEq, Repr

/-- The pipeline bin. A link `(a, b)` joins the `src` pad of `a` to the `sink` pad of `b`. -/
structure Pipeline where
  children : List Elem
  links : List (Elem × Elem)
  state : Elem → GstState
  children_nodup : children.Nodup
  srcs_nodup : (links.map Prod.fst).Nodup
  sinks_nodup : (links.map Prod.snd).Nodup
  links_children : ∀ link ∈ links, link.1 ∈ children ∧ link.2 ∈ children

/-- Failures of GStreamer calls for causes outside the model: a missing static pad, a
refused bin add, unlink or link (caps, for instance). -/
structure Faults where
  missingPad : Elem → Bool
  binAddFails : Elem → Bool
  unlinkFails : Elem → Elem → Bool
  linkFails : Elem → Elem → Bool

@[simps]
def Faults.none : Faults := ⟨fun _ => false, fun _ => false, fun _ _ => false, fun _ _ => false⟩

theorem not_mem_map_erase {g : Elem × Elem → Elem} {links : List (Elem × Elem)}
    (nodup : (links.map g).Nodup) {link : Elem × Elem} (mem : link ∈ links) :
    g link ∉ (links.erase link).map g := by
  simp only [List.mem_map, not_exists, not_and]
  intro other kept same
  obtain ⟨differs, other_mem⟩ := (nodup.of_map g).mem_erase_iff.1 kept
  exact differs (List.inj_on_of_nodup_map nodup other_mem mem same)

namespace Pipeline

variable (p : Pipeline)

def Linked (a b : Elem) : Prop := (a, b) ∈ p.links

instance (a b : Elem) : Decidable (p.Linked a b) := inferInstanceAs (Decidable ((a, b) ∈ p.links))

def filterBins : List Elem := p.children.filter Elem.isFilterBin

/-- `gst_bin_add_many` of `children` into a new pipeline, unlinked; the children are then
set PLAYING with the pipeline. -/
def ofChildren (children : List Elem) (nodup : children.Nodup) : Pipeline :=
  ⟨children, [], fun e => if e ∈ children then .playing else .null, nodup, List.nodup_nil,
    List.nodup_nil, nofun⟩

@[simps]
def addChild (e : Elem) (absent : e ∉ p.children) : Pipeline :=
  { p with
    children := e :: p.children
    children_nodup := List.nodup_cons.2 ⟨absent, p.children_nodup⟩
    links_children := fun link mem =>
      ⟨List.mem_cons_of_mem _ (p.links_children link mem).1,
        List.mem_cons_of_mem _ (p.links_children link mem).2⟩ }

/-- `gst_bin_add (pipeline, e)`. -/
def binAdd (f : Faults) (e : Elem) : Option Pipeline :=
  if clash : f.binAddFails e || p.children.any (·.name == e.name) then none
  else some (p.addChild e fun mem => by
    simp only [Bool.or_eq_true, List.any_eq_true, beq_iff_eq, not_or, not_exists, not_and] at clash
    exact clash.2 e mem rfl)

@[simps]
def removeChild (e : Elem) : Pipeline where
  children := p.children.erase e
  links := p.links.filter fun link => link.1 ≠ e ∧ link.2 ≠ e
  state := p.state
  children_nodup := p.children_nodup.erase e
  srcs_nodup := p.srcs_nodup.sublist ((List.filter_sublist _).map _)
  sinks_nodup := p.sinks_nodup.sublist ((List.filter_sublist _).map _)
  links_children link mem := by
    obtain ⟨mem, keep⟩ := List.mem_filter.1 mem
    simp only [ne_eq, decide_eq_true_eq] at keep
    exact ⟨(List.mem_erase_of_ne keep.1).2 (p.links_children link mem).1,
      (List.mem_erase_of_ne keep.2).2 (p.links_children link mem).2⟩

/-- `gst_bin_remove (pipeline, e)`. -/
def binRemove (e : Elem) : Option Pipeline :=
  if e ∈ p.children then some (p.removeChild e) else none

@[simps]
def unlink (a b : Elem) : Pipeline :=
  { p with
    links := p.links.erase (a, b)
    srcs_nodup := p.srcs_nodup.sublist ((List.erase_sublist _ _).map _)
    sinks_nodup := p.sinks_nodup.sublist ((List.erase_sublist _ _).map _)
    links_children := fun link mem => p.links_children link (List.mem_of_mem_erase mem) }

/-- `gst_pad_unlink (a.src, b.sink)`. -/
def padUnlink (f : Faults) (a b : Elem) : Option Pipeline :=
  if !f.unlinkFails a b && decide (p.Linked a b) then some (p.unlink a b) else none

def CanLink (a b : Elem) : Prop :=
  a ∈ p.children ∧ b ∈ p.children ∧ a ∉ p.links.map Prod.fst ∧
    b ∉ p.links.map Prod.snd

instance (a b : Elem) : Decidable (p.CanLink a b) :=
  inferInstanceAs (Decidable (_ ∧ _ ∧ _ ∧ _))

@[simps]
def link (a b : Elem) (free : p.CanLink a b) : Pipeline :=
  { p with
    links := (a, b) :: p.links
    srcs_nodup := List.nodup_cons.2 ⟨free.2.2.1, p.srcs_nodup⟩
    sinks_nodup := List.nodup_cons.2 ⟨free.2.2.2, p.sinks_nodup⟩
    links_children := by
      rintro link (_ | ⟨_, mem⟩)
      exacts [⟨free.1, free.2.1⟩, p.links_children link mem] }

/-- `gst_element_link (a, b)`: the `src` pad of `a` to the `sink` pad of `b`. -/
def elementLink (f : Faults) (a b : Elem) : Option Pipeline :=
  if free : f.linkFails a b = false ∧ p.CanLink a b then some (p.link a b free.2) else none

@[simps]
def setState (e : Elem) (st : GstState) : Pipeline :=
  { p with state := fun x => if x = e then st else p.state x }

theorem binAdd_of_fresh (f : Faults) {e : Elem} (ok : f.binAddFails e = false)
    (fresh : ∀ x ∈ p.children, x.name ≠ e.name) :
    p.binAdd f e = some (p.addChild e fun mem => fresh e mem rfl) := by
  have clash : p.children.any (·.name == e.name) = false := by simpa using fresh
  simp [binAdd, ok, clash]

theorem binRemove_of_mem {e : Elem} (mem : e ∈ p.children) :
    p.binRemove e = some (p.removeChild e) := if_pos mem

theorem padUnlink_of_linked (f : Faults) {a b : Elem} (ok : f.unlinkFails a b = false)
    (linked : p.Linked a b) : p.padUnlink f a b = some (p.unlink a b) := by
  simp [padUnlink, ok, linked]

theorem elementLink_of_canLink (f : Faults) {a b : Elem} (ok : f.linkFails a b = false)
    (free : p.CanLink a b) : p.elementLink f a b = some (p.link a b free) :=
  dif_pos ⟨ok, free⟩

variable {p}

theorem Linked.children {a b : Elem} (linked : p.Linked a b) :
    a ∈ p.children ∧ b ∈ p.children :=
  p.links_children _ linked

theorem unlinked_of_not_mem {e : Elem} (absent : e ∉ p.children) :
    e ∉ p.links.map Prod.fst ∧ e ∉ p.links.map Prod.snd := by
  simp only [List.mem_map, not_exists, not_and]
  exact ⟨fun link mem first => absent (first ▸ (p.links_children link mem).1),
    fun link mem second => absent (second ▸ (p.links_children link mem).2)⟩

theorem Linked.src_unique {a b c : Elem} (linked : p.Linked a b) (other : p.Linked a c) : c = b :=
  congrArg Prod.snd (List.inj_on_of_nodup_map p.srcs_nodup other linked rfl)

theorem Linked.sink_unique {a b c : Elem} (linked : p.Linked a b) (other : p.Linked c b) : c = a :=
  congrArg Prod.fst (List.inj_on_of_nodup_map p.sinks_nodup other linked rfl)

theorem Linked.unlink_free {a b : Elem} (linked : p.Linked a b) :
    a ∉ (p.unlink a b).links.map Prod.fst ∧ b ∉ (p.unlink a b).links.map Prod.snd :=
  ⟨not_mem_map_erase p.srcs_nodup linked, not_mem_map_erase p.sinks_nodup linked⟩

end Pipeline

/-- `gst_element_link_many`: link each element to the next, up to the first failure, whose
links stay made; with whether all succeeded. -/
def elementLinkMany (f : Faults) : Pipeline → List Elem → Pipeline × Bool
  | p, a :: b :: rest =>
    match p.elementLink f a b with
    | none => (p, false)
    | some p => elementLinkMany f p (b :: rest)
  | p, _ => (p, true)

namespace Pipeline

variable {p : Pipeline}

theorem binAdd_getD (f : Faults) (e : Elem) :
    (p.binAdd f e).getD p = p ∨ ∃ absent, (p.binAdd f e).getD p = p.addChild e absent ∧
      ∀ x ∈ p.children, x.name ≠ e.name := by
  unfold binAdd
  split
  · exact .inl rfl
  · next clash =>
    simp only [Bool.or_eq_true, List.any_eq_true, beq_iff_eq, not_or, not_exists, not_and] at clash
    exact .inr ⟨fun mem => clash.2 e mem rfl, rfl, clash.2⟩

theorem padUnlink_of_not_linked (f : Faults) {a b : Elem} (apart : ¬ p.Linked a b) :
    p.padUnlink f a b = none := by
  simp [padUnlink, apart]

theorem find?_linked {a b : Elem} (linked : p.Linked a b) :
    p.links.find? (·.1 == a) = some (a, b) := by
  cases found : p.links.find? (·.1 == a) with
  | none => simpa using List.find?_eq_none.1 found _ linked
  | some link =>
    obtain ⟨first, second⟩ := link
    obtain rfl : first = a := by simpa using List.find?_some found
    rw [linked.src_unique (List.mem_of_find?_eq_some found)]

theorem elementLink_eq_some {f : Faults} {a b : Elem} {q : Pipeline}
    (linked : p.elementLink f a b = some q) :
    q.children = p.children ∧ q.state = p.state ∧ q.links = (a, b) :: p.links := by
  unfold elementLink at linked
  split at linked
  · cases linked
    exact ⟨rfl, rfl, rfl⟩
  · cases linked

end Pipeline

theorem elementLinkMany_frame (f : Faults) :
    ∀ (p : Pipeline) (chain : List Elem),
      (elementLinkMany f p chain).1.children = p.children ∧
        (elementLinkMany f p chain).1.state = p.state ∧
        p.links ⊆ (elementLinkMany f p chain).1.links ∧
        ∀ link ∈ (elementLinkMany f p chain).1.links,
          link ∈ p.links ∨ link ∈ chain.zip chain.tail
  | p, a :: b :: rest => by
    unfold elementLinkMany
    split
    · exact ⟨rfl, rfl, List.Subset.refl _, fun _ mem => .inl mem⟩
    · next q linked =>
      obtain ⟨children, state, links⟩ := Pipeline.elementLink_eq_some linked
      obtain ⟨children', state', kept, added⟩ := elementLinkMany_frame f q (b :: rest)
      refine ⟨children'.trans children, state'.trans state,
        fun link mem => kept (links ▸ List.mem_cons_of_mem _ mem), fun link mem => ?_⟩
      rcases added link mem with old | new
      · rw [links, List.mem_cons] at old
        rcases old with rfl | old
        · exact .inr (List.mem_cons_self _ _)
        · exact .inl old
      · exact .inr (List.mem_cons_of_mem _ new)
  | p, [] | p, [_] => ⟨rfl, rfl, List.Subset.refl _, fun _ mem => .inl mem⟩

end DeepStreamFpFilter.Gst
