import Mathlib.Data.List.Basic

/-! The offload worker of `ds_save_frame.c`: `_save_frame_task` drains `frame_save_queue`
while `save_frames_for_processing` pushes onto it from the streaming thread, and the main
thread's `stop_save_frame_task` waits for the queue to empty and sets the stop flag. Each
thread's position is explicit; a scheduler picks which one takes the next atomic step. The
stop flag is only touched under its mutex, so a test or a write of it is one step. The
items are the `FrameInfo` records, left abstract. Two ghost lists record every push and
every save command run to completion. -/

namespace DeepStreamFpFilter.SaveFrameTask

/-- Where `_save_frame_task` is. -/
inductive TaskAt (α : Type) where
  | checkStop
  | checkLength
  | pop
  | save (item : α)
  | exited
  deriving DecidableEq, Repr

inductive MainAt where
  | running
  | waitEmpty
  | setStop
  | returned
  deriving DecidableEq, Repr

structure Worker (α : Type) where
  queue : List α
  stop : Bool
  task : TaskAt α
  main : MainAt
  pushed : List α
  processed : List α
  deriving DecidableEq, Repr

/-- `start_save_frame_task`: an empty queue, the flag cleared, the task at its first test. -/
def started {α : Type} : Worker α := ⟨[], false, .checkStop, .running, [], []⟩

/-- One step of `_save_frame_task`. -/
def taskStep {α : Type} (w : Worker α) : Worker α :=
  match w.task with
  | .checkStop => { w with task := if w.stop then .exited else .checkLength }
  | .checkLength => { w with task := if w.queue.length ≠ 0 then .pop else .checkStop }
  | .pop =>
    match w.queue with
    | [] => w
    | item :: rest => { w with queue := rest, task := .save item }
  | .save item => { w with task := .checkLength, processed := w.processed ++ [item] }
  | .exited => w

/-- One step of the main thread's shutdown through `stop_save_frame_task`. -/
def mainStep {α : Type} (w : Worker α) : Worker α :=
  match w.main with
  | .running => { w with main := .waitEmpty }
  | .waitEmpty => if w.queue.length ≠ 0 then w else { w with main := .setStop }
  | .setStop => { w with stop := true, main := .returned }
  | .returned => w

/-- `g_async_queue_push (frame_save_queue, frame_info)` from `save_frames_for_processing`. -/
def push {α : Type} (item : α) (w : Worker α) : Worker α :=
  { w with queue := w.queue ++ [item], pushed := w.pushed ++ [item] }

inductive Event (α : Type) where
  | push (item : α)
  | task
  | main

def step {α : Type} (w : Worker α) : Event α → Worker α
  | .push item => push item w
  | .task => taskStep w
  | .main => mainStep w

def run {α : Type} (w : Worker α) (events : List (Event α)) : Worker α := events.foldl step w

def TaskAt.held {α : Type} : TaskAt α → List α
  | .save item => [item]
  | _ => []

structure Worker.Inv {α : Type} (w : Worker α) : Prop where
  accounted : w.pushed = w.processed ++ w.task.held ++ w.queue
  popNonempty : w.task = .pop → w.queue ≠ []

theorem inv_started {α : Type} : (started : Worker α).Inv := ⟨rfl, nofun⟩

section Steps

variable {α : Type} {w : Worker α}

theorem inv_push (item : α) (inv : w.Inv) : (push item w).Inv :=
  ⟨by simp [push, inv.accounted], fun _ => by simp [push]⟩

theorem inv_taskStep (inv : w.Inv) : (taskStep w).Inv := by
  obtain ⟨queue, stop, task, main, pushed, processed⟩ := w
  obtain ⟨accounted, popNonempty⟩ := inv
  cases task with
  | checkStop => exact ⟨by cases stop <;> exact accounted, by cases stop <;> nofun⟩
  | checkLength =>
    refine ⟨by simp only [taskStep]; split <;> exact accounted, ?_⟩
    simp only [taskStep]
    split
    · exact fun _ => List.ne_nil_of_length_pos (Nat.pos_of_ne_zero ‹_›)
    · nofun
  | pop =>
    cases queue with
    | nil => exact ⟨accounted, popNonempty⟩
    | cons item rest => exact ⟨by simpa [taskStep, TaskAt.held] using accounted, nofun⟩
  | save item => exact ⟨by simpa [taskStep, TaskAt.held] using accounted, nofun⟩
  | exited => exact ⟨accounted, popNonempty⟩

theorem inv_mainStep (inv : w.Inv) : (mainStep w).Inv := by
  unfold mainStep
  split <;> (try split) <;> exact ⟨inv.accounted, inv.popNonempty⟩

theorem inv_step (inv : w.Inv) : ∀ event, (step w event).Inv
  | .push item => inv_push item inv
  | .task => inv_taskStep inv
  | .main => inv_mainStep inv

theorem inv_run (inv : w.Inv) (events : List (Event α)) : (run w events).Inv := by
  induction events generalizing w with
  | nil => exact inv
  | cons event events ih => exact ih (inv_step inv event)

end Steps

theorem pushes_accounted {α : Type} (events : List (Event α)) :
    (run started events).pushed = (run started events).processed ++
        (run started events).task.held ++ (run started events).queue ∧
      (run started events).processed <+: (run started events).pushed ∧
      ((run started events).task = .pop → (run started events).queue ≠ []) := by
  obtain ⟨accounted, popNonempty⟩ := inv_run inv_started events
  exact ⟨accounted, ⟨_, by rw [accounted, List.append_assoc]⟩, popNonempty⟩

theorem run_processed_of_exited {α : Type} {w : Worker α} (exited : w.task = .exited) :
    ∀ events, (run w events).processed = w.processed ∧ (run w events).task = .exited := by
  intro events
  induction events generalizing w with
  | nil => exact ⟨rfl, exited⟩
  | cons event events ih =>
    have stays : (step w event).processed = w.processed ∧ (step w event).task = .exited := by
      cases event with
      | push item => exact ⟨rfl, exited⟩
      | task => simp [step, taskStep, exited]
      | main => simp only [step, mainStep]; split <;> (try split) <;> exact ⟨rfl, exited⟩
    obtain ⟨processed, task⟩ := ih stays.2
    exact ⟨processed.trans stays.1, task⟩

def TaskAt.drains {α : Type} : TaskAt α → Bool
  | .checkStop | .exited => false
  | _ => true

section Stop

variable {α : Type}

theorem run_replicate_add (w : Worker α) (e : Event α) (m k : Nat) :
    run w (List.replicate (m + k) e) = run (run w (List.replicate m e)) (List.replicate k e) := by
  rw [List.replicate_add]
  exact List.foldl_append _ _ _ _

theorem run_tasks_exited {w : Worker α} (exited : w.task = .exited) (k : Nat) :
    run w (List.replicate k .task) = w := by
  induction k with
  | zero => rfl
  | succ k ih =>
    have still : taskStep w = w := by simp [taskStep, exited]
    exact (congrArg (run · _) still).trans ih

theorem run_drain (queue : List α) (main : MainAt) (pushed processed : List α) (k : Nat) :
    run ⟨queue, true, .checkLength, main, pushed, processed⟩
        (List.replicate (3 * queue.length + 2 + k) .task) =
      ⟨[], true, .exited, main, pushed, processed ++ queue⟩ := by
  induction queue generalizing processed with
  | nil =>
    rw [List.length_nil, Nat.mul_zero, Nat.zero_add, run_replicate_add, run_tasks_exited
      (w := run ⟨[], true, .checkLength, main, pushed, processed⟩ (List.replicate 2 .task)) rfl]
    simp [run, step, taskStep]
  | cons item rest ih =>
    rw [show 3 * (item :: rest).length + 2 + k = 3 + (3 * rest.length + 2 + k) by simp; omega,
      run_replicate_add]
    exact (ih (processed ++ [item])).trans (by simp)

theorem task_exits_after_stop (w : Worker α) (inv : w.Inv) (stopped : w.stop = true) :
    (run w (List.replicate (3 * w.queue.length + 3) .task)).task = .exited ∧
      (run w (List.replicate (3 * w.queue.length + 3) .task)).processed =
        w.processed ++ if w.task.drains then w.task.held ++ w.queue else [] := by
  obtain ⟨queue, stop, task, main, pushed, processed⟩ := w
  obtain rfl : stop = true := stopped
  dsimp only
  cases task with
  | checkStop =>
    rw [show 3 * queue.length + 3 = 1 + (3 * queue.length + 2) by omega, run_replicate_add,
      run_tasks_exited (w := run ⟨queue, true, .checkStop, main, pushed, processed⟩
        (List.replicate 1 .task)) rfl]
    simp [TaskAt.drains, run, step, taskStep]
  | checkLength =>
    rw [show 3 * queue.length + 3 = 3 * queue.length + 2 + 1 by omega, run_drain]
    simp [TaskAt.drains, TaskAt.held]
  | pop =>
    obtain ⟨item, rest, rfl⟩ := List.exists_cons_of_ne_nil (inv.popNonempty rfl)
    rw [show 3 * (item :: rest).length + 3 = 2 + (3 * rest.length + 2 + 2) by simp; omega,
      run_replicate_add,
      show run ⟨item :: rest, true, .pop, main, pushed, processed⟩ (List.replicate 2 .task) =
        ⟨rest, true, .checkLength, main, pushed, processed ++ [item]⟩ from rfl, run_drain]
    simp [TaskAt.drains, TaskAt.held]
  | save item =>
    rw [show 3 * queue.length + 3 = 1 + (3 * queue.length + 2 + 0) by omega, run_replicate_add,
      show run ⟨queue, true, .save item, main, pushed, processed⟩ (List.replicate 1 .task) =
        ⟨queue, true, .checkLength, main, pushed, processed ++ [item]⟩ from rfl, run_drain]
    simp [TaskAt.drains, TaskAt.held]
  | exited =>
    rw [run_tasks_exited rfl]
    simp [TaskAt.drains]

theorem task_exits_after_stop_late_push :
    (run started [.task, .main, .main, .main, .push 1]).stop = true ∧
      (run (run started [.task, .main, .main, .main, .push 1])
        (List.replicate 6 .task)).task = .exited ∧
      (run (run started [.task, .main, .main, .main, .push 1])
        (List.replicate 6 .task)).processed = [1] :=
  ⟨rfl, task_exits_after_stop _ (inv_run inv_started _) rfl⟩

end Stop

/-- The shutdown does not wait for the save commands. One item is pushed and popped; the
queue is then empty, so `stop_save_frame_task` returns before the item's command has run.
A second item pushed after the task's last length test and before the flag is set is never
saved: the task sees the flag and exits with the item still queued. -/
theorem stop_returns_before_saves :
    (run started [.push 1, .task, .task, .task, .main, .main, .main]).main = .returned ∧
    (run started [.push 1, .task, .task, .task, .main, .main, .main]).pushed = [1] ∧
    (run started [.push 1, .task, .task, .task, .main, .main, .main]).processed = [] ∧
    ∀ later, (run started ([.push 1, .task, .task, .task, .task, .main, .main, .task, .push 2,
      .main, .task] ++ later)).processed = [1] := by
  refine ⟨by decide, by decide, by decide, fun later => ?_⟩
  rw [run, List.foldl_append, ← run, ← run]
  exact (run_processed_of_exited (by decide) later).1.trans (by decide)

end DeepStreamFpFilter.SaveFrameTask
