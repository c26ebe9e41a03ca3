import Mathlib.Data.List.Basic

/-! The listener thread of `ds_usr_prompt_handler.c` against the main thread's shutdown.
`_server_task` tests `g_stop_server` under its mutex only between connections, and
`stop_usr_prompt_monitor` sets the flag under the same mutex and returns without joining
the thread. A test or a write of the flag is therefore one step. Clients connect at any
time. A ghost counter `lateCalls` counts the invocations of the message callback that are
running when `stop_usr_prompt_monitor` returns or start after it. -/

namespace DeepStreamFpFilter.PromptListener

/-- Where `_server_task` is, once its socket listens. -/
inductive ListenerAt where
  | checkStop
  | accept
  | read
  | callback
  | exited
  deriving DecidableEq, Repr

structure Listener where
  stopServer : Bool
  listener : ListenerAt
  stopped : Bool
  pending : Nat
  lateCalls : Nat
  deriving DecidableEq, Repr

/-- `start_usr_prompt_monitor`: the flag cleared, the task at its first test. -/
def started : Listener := ⟨false, .checkStop, false, 0, 0⟩

/-- One step of `_server_task`. -/
def listenerStep (s : Listener) : Listener :=
  match s.listener with
  | .checkStop => { s with listener := if s.stopServer then .exited else .accept }
  | .accept => if s.pending = 0 then s else { s with listener := .read, pending := s.pending - 1 }
  | .read =>
    { s with
      listener := .callback
      lateCalls := if s.stopped then s.lateCalls + 1 else s.lateCalls }
  | .callback => { s with listener := .checkStop }
  | .exited => s

/-- `stop_usr_prompt_monitor`: set the flag under the mutex, unref the thread, return. -/
def stopUsrPromptMonitor (s : Listener) : Listener :=
  if s.stopped then s
  else { s with stopServer := true, stopped := true
                lateCalls := if s.listener = .callback then 1 else 0 }

inductive Event where
  | connect
  | listener
  | stop

def step (s : Listener) : Event → Listener
  | .connect => { s with pending := s.pending + 1 }
  | .listener => listenerStep s
  | .stop => stopUsrPromptMonitor s

def run (s : Listener) (events : List Event) : Listener := events.foldl step s

/-- A connection that arrives while the listener is blocked in `accept` is served after
`stop_usr_prompt_monitor` has returned: the callback starts during the teardown. -/
theorem callback_after_stop :
    (run started [.listener, .stop, .connect, .listener, .listener]).stopped = true ∧
    (run started [.listener, .stop, .connect, .listener, .listener]).listener = .callback := by
  decide

def Inv (s : Listener) : Prop :=
  s.stopServer = s.stopped ∧ (s.stopped = false → s.lateCalls = 0) ∧ s.lateCalls ≤ 1 ∧
    (s.stopped = true → (s.listener = .accept ∨ s.listener = .read) → s.lateCalls = 0) ∧
    (s.stopped = true → s.listener = .callback → s.lateCalls = 1)

theorem inv_started : Inv started := by simp [Inv, started]

theorem inv_step {s : Listener} (inv : Inv s) (event : Event) : Inv (step s event) := by
  obtain ⟨flag, before, atMost, waiting, calling⟩ := inv
  cases event with
  | connect => exact ⟨flag, before, atMost, waiting, calling⟩
  | stop =>
    show Inv (stopUsrPromptMonitor s)
    unfold stopUsrPromptMonitor
    split
    · exact ⟨flag, before, atMost, waiting, calling⟩
    · refine ⟨rfl, nofun, by split <;> simp, fun _ place => ?_, fun _ place => ?_⟩ <;>
        dsimp only at place ⊢
      · rcases place with place | place <;> simp [place]
      · simp [place]
  | listener =>
    show Inv (listenerStep s)
    cases place : s.listener <;> simp only [Inv, listenerStep, place]
    · cases stopping : s.stopServer <;> simp_all
    · split
      · exact ⟨flag, before, atMost, waiting, calling⟩
      · exact ⟨flag, before, atMost, fun stopped _ => waiting stopped (.inl place), nofun⟩
    · cases done : s.stopped <;> simp_all
    · exact ⟨flag, before, atMost, nofun, nofun⟩
    · exact ⟨flag, before, atMost, fun _ => nofun, nofun⟩

theorem inv_run {s : Listener} (inv : Inv s) (events : List Event) : Inv (run s events) := by
  induction events generalizing s with
  | nil => exact inv
  | cons event events ih => exact ih (inv_step inv event)

theorem late_calls_at_most_one (events : List Event) : (run started events).lateCalls ≤ 1 :=
  (inv_run inv_started events).2.2.1

end DeepStreamFpFilter.PromptListener
