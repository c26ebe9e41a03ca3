import DeepStreamFpFilter.SaveFrameTask
import Mathlib.Algebra.Order.Field.Rat

/-! `save_frames_for_processing`, which `after_filter_buffer_probe` runs on every batch
leaving the filter: for each frame it reads the `NvFpFilterMeta` that nvfpfilter attached
and, while the save toggle is on, pushes a `FrameInfo` onto `frame_save_queue` when at least
half of the frame's objects are false positives. The counts are `guint`, so their sum wraps.
Beside it, the selection the hook is meant to make, read over the integers and rationals. -/

namespace DeepStreamFpFilter.SaveFrames

inductive MetaType where
  /-- `NVFPFILTER_USER_META`, registered as `NVIDIA.NVFPFILTER.USERMETA` -/
  | nvfpfilterUserMeta
  | other (id : Nat)
  deriving DecidableEq, Repr

/-- An `NvDsUserMeta`. The cast to `NvFpFilterMeta *` reads the first two `guint` words of
`user_meta_data` as `fp_count` and `tp_count`, whatever the meta's type. -/
structure UserMeta where
  metaType : MetaType
  fpCount : UInt32
  tpCount : UInt32
  deriving DecidableEq, Repr

structure FrameMeta where
  frameNum : Int
  padIndex : Nat
  frameUserMetaList : List UserMeta
  deriving DecidableEq, Repr

structure FrameInfo where
  frameIndex : Int
  padIndex : Nat
  deriving DecidableEq, Repr

def FrameMeta.info (frame : FrameMeta) : FrameInfo := ⟨frame.frameNum, frame.padIndex⟩

/-- `FALSE_POSITIVE_PERCENTAGE_THRESHOLD` (`0.5`). -/
def falsePositivePercentageThreshold : ℚ := 1 / 2

def lastUserMeta (frameUserMetaList : List UserMeta) : Option UserMeta :=
  frameUserMetaList.foldl (fun _ userMeta => some userMeta) none

/-- `guint total_objects = tp_count + fp_count`. -/
def totalObjects (userMeta : UserMeta) : UInt32 := userMeta.tpCount + userMeta.fpCount

/-- The tests after the toggle's: more than one object, and
`(gdouble) fp_count / (gdouble) total_objects >= FALSE_POSITIVE_PERCENTAGE_THRESHOLD`. The
counts are exact as doubles, and a quotient below `0.5` falls short of it by at least
`2^-33`, far more than the division's rounding, so the double test is the rational one. -/
def fpPercentPasses (userMeta : UserMeta) : Prop :=
  ¬ totalObjects userMeta ≤ 1 ∧
    falsePositivePercentageThreshold ≤
      (userMeta.fpCount.toNat : ℚ) / (totalObjects userMeta).toNat

instance (userMeta : UserMeta) : Decidable (fpPercentPasses userMeta) :=
  inferInstanceAs (Decidable (_ ∧ _))

theorem half_le_div_iff {a b : ℕ} (positive : 0 < b) :
    (1 / 2 : ℚ) ≤ a / b ↔ b ≤ 2 * a := by
  rw [le_div_iff₀ (by exact_mod_cast positive), one_div, inv_mul_le_iff₀ two_pos]
  norm_cast

theorem fpPercentPasses_iff_le (userMeta : UserMeta) :
    fpPercentPasses userMeta ↔ 1 < (totalObjects userMeta).toNat ∧
      (totalObjects userMeta).toNat ≤ 2 * userMeta.fpCount.toNat := by
  have small : totalObjects userMeta ≤ 1 ↔ (totalObjects userMeta).toNat ≤ 1 := by
    simp [UInt32.le_def, UInt32.toNat, BitVec.le_def]
  simp only [fpPercentPasses, small, not_le, falsePositivePercentageThreshold]
  exact and_congr_right fun more => half_le_div_iff (by omega)

/-- `save_frames_for_processing` over the frames of a batch: the `FrameInfo`s it pushes, in
order. `saveStatus` is what `get_fpfilter_images_save_status` returns; a frame with no user
meta makes the function `return`. -/
def saveFramesForProcessing (saveStatus : Bool) : List FrameMeta → List FrameInfo
  | [] => []
  | frame :: rest =>
    match lastUserMeta frame.frameUserMetaList with
    | none => []
    | some userMeta =>
      if saveStatus ∧ fpPercentPasses userMeta then
        frame.info :: saveFramesForProcessing saveStatus rest
      else saveFramesForProcessing saveStatus rest

theorem saveFramesForProcessing_off (batch : List FrameMeta) :
    saveFramesForProcessing false batch = [] := by
  induction batch with
  | nil => rfl
  | cons frame rest ih =>
    simp only [saveFramesForProcessing]
    split <;> simp [ih]

def Qualifies (userMeta : UserMeta) : Prop :=
  2 ≤ userMeta.fpCount.toNat + userMeta.tpCount.toNat ∧
    (1 / 2 : ℚ) ≤
      (userMeta.fpCount.toNat : ℚ) / (userMeta.fpCount.toNat + userMeta.tpCount.toNat : ℕ)

instance (userMeta : UserMeta) : Decidable (Qualifies userMeta) :=
  inferInstanceAs (Decidable (_ ∧ _))

theorem qualifies_iff_le (userMeta : UserMeta) :
    Qualifies userMeta ↔ 2 ≤ userMeta.fpCount.toNat + userMeta.tpCount.toNat ∧
      userMeta.fpCount.toNat + userMeta.tpCount.toNat ≤ 2 * userMeta.fpCount.toNat :=
  and_congr_right fun enough => half_le_div_iff (by omega)

def HasQualifyingMeta (frame : FrameMeta) : Prop :=
  ∃ userMeta ∈ frame.frameUserMetaList,
    userMeta.metaType = .nvfpfilterUserMeta ∧ Qualifies userMeta

instance (frame : FrameMeta) : Decidable (HasQualifyingMeta frame) :=
  inferInstanceAs (Decidable (∃ _ ∈ _, _))

def specifiedSaves (saveStatus : Bool) (batch : List FrameMeta) : List FrameInfo :=
  if saveStatus then
    (batch.filter fun frame => decide (HasQualifyingMeta frame)).map FrameMeta.info
  else []

theorem fpPercentPasses_iff {userMeta : UserMeta}
    (noWrap : userMeta.fpCount.toNat + userMeta.tpCount.toNat < 2 ^ 32) :
    fpPercentPasses userMeta ↔ Qualifies userMeta := by
  have total : (totalObjects userMeta).toNat = userMeta.fpCount.toNat + userMeta.tpCount.toNat := by
    simp only [totalObjects, UInt32.add_def, UInt32.toNat, BitVec.toNat_add] at noWrap ⊢
    omega
  rw [fpPercentPasses_iff_le, qualifies_iff_le, total]
  omega

theorem saveFramesForProcessing_single_meta (saveStatus : Bool) (batch : List FrameMeta)
    (single : ∀ frame ∈ batch, ∃ userMeta, frame.frameUserMetaList = [userMeta] ∧
      userMeta.metaType = .nvfpfilterUserMeta ∧
      userMeta.fpCount.toNat + userMeta.tpCount.toNat < 2 ^ 32) :
    saveFramesForProcessing saveStatus batch = specifiedSaves saveStatus batch := by
  cases saveStatus
  · simp [saveFramesForProcessing_off, specifiedSaves]
  induction batch with
  | nil => rfl
  | cons frame rest ih =>
    obtain ⟨userMeta, only, fpfilter, noWrap⟩ := single frame (List.mem_cons_self _ _)
    have qualifying : HasQualifyingMeta frame ↔ Qualifies userMeta := by
      simp [HasQualifyingMeta, only, fpfilter]
    have later := ih fun frame mem => single frame (List.mem_cons_of_mem _ mem)
    simp only [specifiedSaves, if_true] at later ⊢
    simp only [saveFramesForProcessing, only, lastUserMeta, List.foldl, true_and,
      fpPercentPasses_iff noWrap, List.filter_cons, qualifying, later]
    split <;> simp [*]

theorem saveFramesForProcessing_single_meta_batch :
    (∀ frame ∈ [(⟨0, 0, [⟨.nvfpfilterUserMeta, 2, 1⟩]⟩ : FrameMeta),
        ⟨1, 0, [⟨.nvfpfilterUserMeta, 0, 3⟩]⟩],
      ∃ userMeta, frame.frameUserMetaList = [userMeta] ∧
        userMeta.metaType = .nvfpfilterUserMeta ∧
        userMeta.fpCount.toNat + userMeta.tpCount.toNat < 2 ^ 32) ∧
      saveFramesForProcessing true [⟨0, 0, [⟨.nvfpfilterUserMeta, 2, 1⟩]⟩,
          ⟨1, 0, [⟨.nvfpfilterUserMeta, 0, 3⟩]⟩] =
        specifiedSaves true [⟨0, 0, [⟨.nvfpfilterUserMeta, 2, 1⟩]⟩,
          ⟨1, 0, [⟨.nvfpfilterUserMeta, 0, 3⟩]⟩] :=
  have single : ∀ frame ∈ [(⟨0, 0, [⟨.nvfpfilterUserMeta, 2, 1⟩]⟩ : FrameMeta),
      ⟨1, 0, [⟨.nvfpfilterUserMeta, 0, 3⟩]⟩],
      ∃ userMeta, frame.frameUserMetaList = [userMeta] ∧
        userMeta.metaType = .nvfpfilterUserMeta ∧
        userMeta.fpCount.toNat + userMeta.tpCount.toNat < 2 ^ 32 := by
    intro frame mem
    simp only [List.mem_cons, List.not_mem_nil, or_false] at mem
    rcases mem with rfl | rfl <;> exact ⟨_, rfl, rfl, by decide⟩
  ⟨single, saveFramesForProcessing_single_meta true _ single⟩

/-- Three batches where the hook departs from the specified selection. A foreign meta after
the fpfilter one is the one read; a frame with no user meta ends the whole batch; and
`3 + (2^32 - 1)` wraps to `2` objects, three of them false positives. -/
theorem save_frames_failing_inputs :
    saveFramesForProcessing true
        [⟨0, 0, [⟨.nvfpfilterUserMeta, 2, 0⟩, ⟨.other 1, 0, 2⟩]⟩] = [] ∧
      specifiedSaves true [⟨0, 0, [⟨.nvfpfilterUserMeta, 2, 0⟩, ⟨.other 1, 0, 2⟩]⟩] =
        [⟨0, 0⟩] ∧
    saveFramesForProcessing true
        [⟨0, 0, []⟩, ⟨1, 0, [⟨.nvfpfilterUserMeta, 2, 0⟩]⟩] = [] ∧
      specifiedSaves true
        [⟨0, 0, []⟩, ⟨1, 0, [⟨.nvfpfilterUserMeta, 2, 0⟩]⟩] = [⟨1, 0⟩] ∧
    saveFramesForProcessing true [⟨0, 0, [⟨.nvfpfilterUserMeta, 3, 4294967295⟩]⟩] =
        [⟨0, 0⟩] ∧
      specifiedSaves true [⟨0, 0, [⟨.nvfpfilterUserMeta, 3, 4294967295⟩]⟩] = [] := by
  simp only [saveFramesForProcessing, specifiedSaves, HasQualifyingMeta, lastUserMeta,
    List.foldl, fpPercentPasses_iff_le, qualifies_iff_le]
  decide

end DeepStreamFpFilter.SaveFrames
