import DeepStreamFpFilter.PromptHandler

/-! The application's threads together: the listener thread handling control messages one
entry at a time, the streaming thread whose items reach the stream muxer and fire the splice
probes, and the filter bins letting out the EOS they hold, in any interleaving. The listener's
calls of `enable_fpfilter` and `disable_fpfilter` are the steps of `FilterToggle`; the items
and the releases leave the flag and the splice calls alone. -/

namespace DeepStreamFpFilter.Application

open Gst DynamicLink FilterToggle PromptHandler SaveToggle SpliceShape

inductive Event where
  | listener (step : SessionStep)
  | item (kind : ItemKind) (sync : Elem → Bool)
  | release (bin : Elem)

def step (made : Nat → Bool) (c : Control) : Event → Control
  | .listener s => sessionStep made c s
  | .item kind sync => { c with app := FilterToggle.step c.app (.item kind sync) }
  | .release bin => { c with app := FilterToggle.step c.app (.release bin) }

def run (made : Nat → Bool) (c : Control) (events : List Event) : Control :=
  events.foldl (step made) c

theorem holdEos_flag (bin : Elem) (a : App) :
    (holdEos bin a).isFpfilterEnabled = a.isFpfilterEnabled := by
  unfold holdEos
  split <;> rfl

theorem releaseEos_flag (bin : Elem) (a : App) :
    (releaseEos bin a).isFpfilterEnabled = a.isFpfilterEnabled :=
  fireProbes_preserves App.splice App.setSplice holdEos
    (fun x => x.isFpfilterEnabled = a.isFpfilterEnabled) (fun _ _ same => same)
    (fun bin x same => (holdEos_flag bin x).trans same) _ _ _ _ _ rfl

theorem step_flag (a : App) (e : FilterToggle.Event) (data : e.isEnable = false)
    (kept : e ≠ .disable) : (FilterToggle.step a e).isFpfilterEnabled = a.isFpfilterEnabled := by
  cases e with
  | enable => cases data
  | disable => exact absurd rfl kept
  | item kind sync =>
    refine fireProbes_preserves App.splice App.setSplice (sendEos sync)
      (fun x => x.isFpfilterEnabled = a.isFpfilterEnabled) (fun _ _ same => same)
      (fun bin x same => ?_) _ _ _ _ _ rfl
    unfold sendEos
    split
    · exact same
    · split
      · exact (releaseEos_flag bin x).trans same
      · exact (holdEos_flag bin x).trans same
  | release bin =>
    show (if bin ∈ a.draining then releaseEos bin a else a).isFpfilterEnabled = _
    split
    · exact releaseEos_flag bin a
    · rfl

structure Agrees (enabled : Bool) (c : Control) : Prop where
  shaped : c.app.Shaped
  follows : FlagFollows enabled c

section Steps

variable {made : Nat → Bool} {enabled : Bool} {c : Control} (agrees : Agrees enabled c)
include agrees

theorem Agrees.entry (entry : JsonNode) : Agrees enabled (handleEntry made c entry) := by
  refine ⟨?_, flagFollows_handleEntry made entry agrees.follows⟩
  obtain ⟨-, -, enable⟩ | ⟨-, -, disable⟩ | ⟨app, -⟩ := handleEntry_cases made c entry
  · rw [enable, enableFpfilterCall_app]
    exact agrees.shaped.step (.enable _)
  · rw [disable, disableFpfilterCall_app]
    exact agrees.shaped.step .disable
  · exact app ▸ agrees.shaped

theorem Agrees.data (e : FilterToggle.Event) (data : e.isEnable = false) (kept : e ≠ .disable) :
    Agrees enabled { c with app := FilterToggle.step c.app e } := by
  have flag := step_flag c.app e data kept
  exact ⟨agrees.shaped.step e, agrees.follows.1, flag.trans agrees.follows.2⟩

theorem Agrees.step : ∀ e, Agrees enabled (step made c e)
  | .listener (.wait _) => ⟨agrees.shaped, agrees.follows⟩
  | .listener (.entry entry) => agrees.entry entry
  | .item _ _ => agrees.data _ rfl nofun
  | .release _ => agrees.data _ rfl nofun

theorem Agrees.run (events : List Event) : Agrees enabled (run made c events) := by
  induction events generalizing c with
  | nil => exact agrees
  | cons e events ih => exact ih (agrees.step e)

end Steps

theorem threads_keep_one_bin_and_flag (made : Nat → Bool) (enabled : Bool) (toggle : Toggle)
    (attempts : Nat) (events : List Event) :
    (run made ⟨initial enabled, toggle, attempts, []⟩ events).app.splice.pipeline.filterBins.length
        ≤ 1 ∧
      (run made ⟨initial enabled, toggle, attempts, []⟩ events).app.splice.pipeline.Linked
        .streammux .primaryDetector ∧
      FlagFollows enabled (run made ⟨initial enabled, toggle, attempts, []⟩ events) :=
  have agrees := (show Agrees enabled ⟨initial enabled, toggle, attempts, []⟩ from
    ⟨shaped_initial enabled, alternates_nil _, rfl⟩).run events
  ⟨agrees.shaped.splice.pipeline.filterBins_length, agrees.shaped.splice.pipeline.muxLinked,
    agrees.follows⟩

end DeepStreamFpFilter.Application
