import DeepStreamFpFilter.PromptFraming
import Mathlib.Data.List.Basic

/-! The save toggle `save_fpfilter_images` and its timers. `handle_usr_prompt` sets it on
`save-fp-enable`, arming a one-shot `g_timeout_add` when a `duration` is given, and clears
it on `save-fp-disable`; an effective `enable_fpfilter` or `disable_fpfilter` clears it too.
A timer clears the toggle when it fires and is never cancelled. A run is a list of commands,
each after a wait in milliseconds. At one instant the commands issued then are handled
first and the timers due then fire after them. -/

namespace DeepStreamFpFilter.SaveToggle

open PromptFraming (toGuint)

inductive SaveCommand where
  | saveFpEnable (duration : Option Int)
  | saveFpDisable
  | filterToggled
  deriving DecidableEq, Repr

structure Toggle where
  saveFpfilterImages : Bool
  timers : List Nat
  now : Nat
  deriving DecidableEq, Repr

def enableFpfilterImagesSave (s : Toggle) : Toggle := { s with saveFpfilterImages := true }

def disableFpfilterImagesSave (s : Toggle) : Toggle := { s with saveFpfilterImages := false }

/-- `enable_fpfilter_images_save_duration (duration_ms)`: set the toggle and arm a timer
that runs `disable_fpfilter_images_save_duration` once, `duration_ms` from now. -/
def enableFpfilterImagesSaveDuration (durationMs : Nat) (s : Toggle) : Toggle :=
  { enableFpfilterImagesSave s with timers := s.timers ++ [s.now + durationMs] }

def fireBefore (t : Nat) (s : Toggle) : Toggle :=
  { s with saveFpfilterImages := s.saveFpfilterImages && !(s.timers.any (· < t))
           timers := s.timers.filter (t ≤ ·) }

/-- The save branches of `handle_usr_prompt`; the duration goes through `(guint)`. -/
def handleSave : SaveCommand → Toggle → Toggle
  | .saveFpEnable none => enableFpfilterImagesSave
  | .saveFpEnable (some duration) => enableFpfilterImagesSaveDuration (toGuint duration)
  | .saveFpDisable => disableFpfilterImagesSave
  | .filterToggled => disableFpfilterImagesSave

def issue (s : Toggle) (command : Nat × SaveCommand) : Toggle :=
  handleSave command.2 (fireBefore (s.now + command.1) { s with now := s.now + command.1 })

/-- `save_fpfilter_images` after the commands and a last wait, once the timers due by then
have fired. -/
def saveAt (commands : List (Nat × SaveCommand)) (wait : Nat) : Bool :=
  let s := commands.foldl issue ⟨false, [], 0⟩
  (fireBefore (s.now + wait + 1) s).saveFpfilterImages

def stamps (start : Nat) : List (Nat × SaveCommand) → List (Nat × SaveCommand)
  | [] => []
  | (wait, command) :: rest => (start + wait, command) :: stamps (start + wait) rest

def endTime (start : Nat) : List (Nat × SaveCommand) → Nat
  | [] => start
  | (wait, _) :: rest => endTime (start + wait) rest

/-- The toggle read off the latest command alone: on iff it is a `save-fp-enable` without a
duration, or with one that has not yet elapsed. -/
def latestCommandSave (commands : List (Nat × SaveCommand)) (wait : Nat) : Bool :=
  match (stamps 0 commands).getLast? with
  | some (_, .saveFpEnable none) => true
  | some (issued, .saveFpEnable (some duration)) =>
    decide (((endTime 0 commands + wait : Nat) : Int) < issued + duration)
  | _ => false

/-- A timer armed earlier clears a later indefinite enable, and a duration of `2^32` ms
wraps to `0` in the `guint` cast. -/
theorem save_toggle_diverges :
    saveAt [(0, .saveFpEnable (some 10)), (5, .saveFpEnable none)] 10 = false ∧
    latestCommandSave [(0, .saveFpEnable (some 10)), (5, .saveFpEnable none)] 10 = true ∧
    saveAt [(0, .saveFpEnable (some (2 ^ 32)))] 1 = false ∧
    latestCommandSave [(0, .saveFpEnable (some (2 ^ 32)))] 1 = true := by
  decide

def SaveCommand.sets : SaveCommand → Bool
  | .saveFpEnable _ => true
  | _ => false

def expiries (timed : List (Nat × SaveCommand)) : List Nat :=
  timed.filterMap fun
    | (issued, .saveFpEnable (some duration)) => some (issued + duration.toNat)
    | _ => none

/-- The toggle as the code is designed to read a run: on iff the latest command is a
`save-fp-enable`, issued at `s`, and no timer is due in `[s, t]`, whether armed by this
command or by an earlier one, since none is cancelled. -/
def designedSave (commands : List (Nat × SaveCommand)) (wait : Nat) : Bool :=
  match (stamps 0 commands).getLast? with
  | some (issued, command) =>
    command.sets && (expiries (stamps 0 commands)).all
      fun due => due < issued || endTime 0 commands + wait < due
  | none => false

def DurationsFit (commands : List (Nat × SaveCommand)) : Prop :=
  ∀ wait duration, (wait, .saveFpEnable (some duration)) ∈ commands →
    0 ≤ duration ∧ duration < 2 ^ 32

theorem stamps_append (start wait : Nat) (command : SaveCommand) :
    ∀ commands, stamps start (commands ++ [(wait, command)]) =
      stamps start commands ++ [(endTime start commands + wait, command)]
  | [] => by simp [stamps, endTime]
  | (wait', command') :: commands => by
    rw [List.cons_append, stamps, stamps_append (start + wait') wait command commands]
    rfl

theorem endTime_append (start wait : Nat) (command : SaveCommand) :
    ∀ commands, endTime start (commands ++ [(wait, command)]) = endTime start commands + wait
  | [] => rfl
  | (wait', _) :: commands => endTime_append (start + wait') wait command commands

@[simp] theorem fireBefore_now (t : Nat) (s : Toggle) : (fireBefore t s).now = s.now := rfl

@[simp] theorem fireBefore_timers (t : Nat) (s : Toggle) :
    (fireBefore t s).timers = s.timers.filter (t ≤ ·) := rfl

@[simp] theorem handleSave_now (command : SaveCommand) (s : Toggle) :
    (handleSave command s).now = s.now := by
  cases command with
  | saveFpEnable duration => cases duration <;> rfl
  | _ => rfl

@[simp] theorem handleSave_save (command : SaveCommand) (s : Toggle) :
    (handleSave command s).saveFpfilterImages = command.sets := by
  cases command with
  | saveFpEnable duration => cases duration <;> rfl
  | _ => rfl

theorem handleSave_timers (command : SaveCommand) (s : Toggle) :
    (handleSave command s).timers = match command with
      | .saveFpEnable (some duration) => s.timers ++ [s.now + toGuint duration]
      | _ => s.timers := by
  cases command with
  | saveFpEnable duration => cases duration <;> rfl
  | _ => rfl

theorem foldl_issue (commands : List (Nat × SaveCommand)) (fit : DurationsFit commands) :
    let s := commands.foldl issue ⟨false, [], 0⟩
    s.now = endTime 0 commands ∧
      s.timers = (expiries (stamps 0 commands)).filter (endTime 0 commands ≤ ·) ∧
      s.saveFpfilterImages = ((stamps 0 commands).getLast?.map (·.2.sets)).getD false ∧
      ∀ last ∈ (stamps 0 commands).getLast?, last.1 = endTime 0 commands := by
  induction commands using List.reverseRecOn with
  | nil => simp [stamps, endTime, expiries]
  | append_singleton commands last ih =>
    obtain ⟨wait, command⟩ := last
    obtain ⟨now, timers, -, -⟩ := ih fun w d mem => fit w d (List.mem_append_left _ mem)
    simp only [List.foldl_append, List.foldl_cons, List.foldl_nil, stamps_append, endTime_append,
      List.getLast?_concat, Option.map_some', Option.getD_some, Option.mem_def,
      Option.some.injEq, forall_eq', issue, handleSave_now, fireBefore_now, handleSave_save,
      handleSave_timers, fireBefore_timers, now, timers, expiries, List.filterMap_append,
      List.filter_filter]
    refine ⟨trivial, ?_, trivial, trivial⟩
    have narrow (l : List Nat) : l.filter (fun a => decide (endTime 0 commands + wait ≤ a) &&
        decide (endTime 0 commands ≤ a)) = l.filter (endTime 0 commands + wait ≤ ·) :=
      List.filter_congr fun a _ => by
        by_cases late : endTime 0 commands + wait ≤ a <;> simp [late]; omega
    cases command with
    | saveFpEnable duration =>
      cases duration with
      | none => simp [narrow]
      | some duration =>
        obtain ⟨nonneg, small⟩ := fit wait duration (by simp)
        have cast : toGuint duration = duration.toNat := by
          have := PromptFraming.toGuint_of_lt nonneg small; omega
        simp [narrow, cast]
    | _ => simp [narrow]

theorem save_toggle_design (commands : List (Nat × SaveCommand)) (fit : DurationsFit commands)
    (wait : Nat) : saveAt commands wait = designedSave commands wait := by
  obtain ⟨now, timers, save, last⟩ := foldl_issue commands fit
  simp only [saveAt, designedSave, fireBefore, now, timers, save]
  cases latest : (stamps 0 commands).getLast? with
  | none => simp
  | some issued =>
    obtain ⟨issued, command⟩ := issued
    obtain rfl : issued = endTime 0 commands := last _ latest
    simp only [Option.map_some', Option.getD_some]
    congr 1
    rw [Bool.eq_iff_iff]
    simp only [Bool.not_eq_true', List.any_eq_false, List.all_eq_true, List.mem_filter,
      decide_eq_true_eq, Bool.or_eq_true]
    exact forall_congr' fun due =>
      ⟨fun clear armed => by
        by_cases late : endTime 0 commands ≤ due
        · have := clear ⟨armed, late⟩; omega
        · omega,
        fun clear ⟨armed, _⟩ => by have := clear armed; omega⟩

theorem save_toggle_design_two_enables :
    DurationsFit [(0, .saveFpEnable (some 30)), (10, .saveFpEnable none)] ∧
    saveAt [(0, .saveFpEnable (some 30)), (10, .saveFpEnable none)] 25 =
      designedSave [(0, .saveFpEnable (some 30)), (10, .saveFpEnable none)] 25 :=
  ⟨fun _ _ mem => by simp at mem; omega,
    save_toggle_design _ (fun _ _ mem => by simp at mem; omega) 25⟩

end DeepStreamFpFilter.SaveToggle
