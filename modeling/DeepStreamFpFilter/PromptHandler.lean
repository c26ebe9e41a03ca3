import DeepStreamFpFilter.FilterToggle
import DeepStreamFpFilter.SaveToggle

/-! `handle_usr_prompt`, which the listener thread runs on each message. json-glib parses the
message into a tree; each entry of its `message` array that targets `fpfilter` becomes a call
of `enable_fpfilter`, `disable_fpfilter` or one of the save toggle's functions. The json-glib
accessors are modelled as they behave on a node of the wrong kind: `NULL` for an entry that is
not an object or a member that is not a string, `FALSE` for a member test on `NULL`. The splice
calls that `enable_fpfilter` and `disable_fpfilter` make past their guards are recorded, and
the flag is shown to follow them over every session. -/

namespace DeepStreamFpFilter.PromptHandler

open FilterToggle SaveToggle

/-- A JSON node as `json_parser_load_from_data` builds it: a number without a fraction or an
exponent is a `gint64`, any other a `gdouble`. -/
inductive JsonNode where
  | null
  | boolean (b : Bool)
  | int (i : Int)
  | double (d : ℚ)
  | string (s : String)
  | array (elements : List JsonNode)
  | object (members : List (String × JsonNode))

def usrPromptKeyMessage : String := "message"
def usrPromptKeyAction : String := "action"
def usrPromptKeyTarget : String := "target"
def usrPromptKeyEnable : String := "enable"
def usrPromptKeyDisable : String := "disable"
def usrPromptKeySaveFpEnable : String := "save-fp-enable"
def usrPromptKeySaveFpDisable : String := "save-fp-disable"
def usrPromptKeyDuration : String := "duration"

abbrev JsonObject := Option (List (String × JsonNode))

/-- `json_array_get_object_element`: `NULL` for an entry that is not an object. -/
def getObjectElement : JsonNode → JsonObject
  | .object members => some members
  | _ => none

/-- `json_object_get_member`; `none` for a missing member or a `NULL` object. -/
def getMember (obj : JsonObject) (name : String) : Option JsonNode :=
  obj.bind fun members => members.lookup name

/-- `json_object_has_member`, `FALSE` on `NULL`. -/
def hasMember (obj : JsonObject) (name : String) : Bool := (getMember obj name).isSome

/-- `json_object_get_string_member`: `NULL` unless the member holds a string. -/
def getStringMember (obj : JsonObject) (name : String) : Option String :=
  match getMember obj name with
  | some (.string s) => some s
  | _ => none

/-- `json_object_get_int_member`: a `gdouble` is cast to `gint64`, toward zero; a boolean reads
as `0` or `1`, anything else as `0`. -/
def getIntMember (obj : JsonObject) (name : String) : Int :=
  match getMember obj name with
  | some (.int i) => i
  | some (.double d) => d.num.tdiv d.den
  | some (.boolean b) => if b then 1 else 0
  | _ => 0

theorem getStringMember_eq_some {obj : JsonObject} {name s : String} :
    getStringMember obj name = some s ↔ getMember obj name = some (.string s) := by
  unfold getStringMember
  split <;> simp_all

theorem hasMember_of_getStringMember {obj : JsonObject} {name s : String}
    (holds : getStringMember obj name = some s) : hasMember obj name = true := by
  simp [hasMember, getStringMember_eq_some.1 holds]

theorem getStringMember_getObjectElement {entry : JsonNode} {name s : String} :
    getStringMember (getObjectElement entry) name = some s ↔
      ∃ members, entry = .object members ∧ members.lookup name = some (.string s) := by
  rw [getStringMember_eq_some]
  cases entry <;> simp [getObjectElement, getMember]

theorem members_of_command {entry : JsonNode} {action : String}
    (target : getStringMember (getObjectElement entry) usrPromptKeyTarget = some "fpfilter")
    (asked : getStringMember (getObjectElement entry) usrPromptKeyAction = some action) :
    ∃ members, entry = .object members ∧ members.lookup "target" = some (.string "fpfilter") ∧
      members.lookup "action" = some (.string action) := by
  obtain ⟨members, rfl, named⟩ := getStringMember_getObjectElement.1 target
  obtain ⟨_, same, asked⟩ := getStringMember_getObjectElement.1 asked
  cases same
  exact ⟨members, rfl, named, asked⟩

inductive SpliceRequest where
  | add
  | remove
  deriving DecidableEq, Repr

@[simp] def SpliceRequest.isAdd : SpliceRequest → Bool
  | .add => true
  | .remove => false

/-- What `handle_usr_prompt` reads and changes, with the splice calls made so far. -/
structure Control where
  app : App
  toggle : Toggle
  attempts : Nat
  requests : List SpliceRequest

/-- `enable_fpfilter`: the `n`-th call of `create_filter_elements_bin` returns a bin iff
`made n`. Past both guards it clears the save toggle and calls `add_element_to_pipeline`. -/
def enableFpfilterCall (made : Nat → Bool) (c : Control) : Control :=
  if c.app.isFpfilterEnabled then c
  else if made c.attempts then
    { app := enableFpfilter true c.app
      toggle := handleSave .filterToggled c.toggle
      attempts := c.attempts + 1
      requests := c.requests ++ [.add] }
  else { c with attempts := c.attempts + 1 }

/-- `disable_fpfilter`: past its guard it clears the save toggle and calls
`remove_element_from_pipeline`. -/
def disableFpfilterCall (c : Control) : Control :=
  if !c.app.isFpfilterEnabled then c
  else
    { c with
      app := disableFpfilter c.app
      toggle := handleSave .filterToggled c.toggle
      requests := c.requests ++ [.remove] }

theorem enableFpfilterCall_app (made : Nat → Bool) (c : Control) :
    (enableFpfilterCall made c).app = enableFpfilter (made c.attempts) c.app := by
  unfold enableFpfilterCall
  split
  · simp [enableFpfilter, *]
  · split <;> simp [enableFpfilter, *]

theorem disableFpfilterCall_app (c : Control) :
    (disableFpfilterCall c).app = disableFpfilter c.app := by
  unfold disableFpfilterCall
  split <;> simp_all [disableFpfilter]

theorem enableFpfilterCall_requests (made : Nat → Bool) (c : Control) :
    (enableFpfilterCall made c).requests = c.requests ∨ c.app.isFpfilterEnabled = false := by
  unfold enableFpfilterCall
  split
  · exact .inl rfl
  · next off =>
    split
    · exact .inr (by simpa using off)
    · exact .inl rfl

theorem disableFpfilterCall_requests (c : Control) :
    (disableFpfilterCall c).requests = c.requests ∨ c.app.isFpfilterEnabled = true := by
  unfold disableFpfilterCall
  split
  · exact .inl rfl
  · next enabledNow => exact .inr (by simpa using enabledNow)

/-- The body of the loop over the `message` array, for one entry. `g_strcmp0 (s, key)` is
`0` exactly when `s` is the string `key`, never for `NULL`. -/
def handleEntry (made : Nat → Bool) (c : Control) (entry : JsonNode) : Control :=
  let arrObj := getObjectElement entry
  if !hasMember arrObj usrPromptKeyTarget then c
  else if getStringMember arrObj usrPromptKeyTarget != some "fpfilter" then c
  else if !hasMember arrObj usrPromptKeyAction then c
  else
    let action := getStringMember arrObj usrPromptKeyAction
    if action == some usrPromptKeyEnable then enableFpfilterCall made c
    else if action == some usrPromptKeyDisable then disableFpfilterCall c
    else if action == some usrPromptKeySaveFpEnable then
      if !hasMember arrObj usrPromptKeyDuration then
        { c with toggle := handleSave (.saveFpEnable none) c.toggle }
      else
        { c with
          toggle :=
            handleSave (.saveFpEnable (some (getIntMember arrObj usrPromptKeyDuration))) c.toggle }
    else if action == some usrPromptKeySaveFpDisable then
      { c with toggle := handleSave .saveFpDisable c.toggle }
    else c

def messageEntries : Option JsonNode → List JsonNode
  | some (.object members) =>
    match getMember (some members) usrPromptKeyMessage with
    | some (.array elements) => elements
    | _ => []
  | _ => []

/-- `handle_usr_prompt` on a message json-glib parsed to `root`. -/
def handleUsrPrompt (made : Nat → Bool) (c : Control) (root : Option JsonNode) : Control :=
  (messageEntries root).foldl (handleEntry made) c

def passTime (ms : Nat) (c : Control) : Control :=
  { c with toggle := fireBefore (c.toggle.now + ms) { c.toggle with now := c.toggle.now + ms } }

inductive SessionStep where
  | wait (ms : Nat)
  | entry (entry : JsonNode)

def sessionStep (made : Nat → Bool) (c : Control) : SessionStep → Control
  | .wait ms => passTime ms c
  | .entry entry => handleEntry made c entry

def messageSteps (message : Nat × Option JsonNode) : List SessionStep :=
  .wait message.1 :: (messageEntries message.2).map .entry

def alternates : Bool → List SpliceRequest → Bool
  | _, [] => true
  | false, .add :: rest => alternates true rest
  | true, .remove :: rest => alternates false rest
  | _, _ :: _ => false

def flagAfter (enabled : Bool) (requests : List SpliceRequest) : Bool :=
  match requests.getLast? with
  | some request => request.isAdd
  | none => enabled

@[simp] theorem alternates_nil (enabled : Bool) : alternates enabled [] = true := by
  cases enabled <;> rfl

@[simp] theorem flagAfter_nil (enabled : Bool) : flagAfter enabled [] = enabled := rfl

@[simp] theorem flagAfter_append (enabled : Bool) (requests : List SpliceRequest)
    (request : SpliceRequest) : flagAfter enabled (requests ++ [request]) = request.isAdd := by
  simp [flagAfter]

theorem flagAfter_cons (enabled : Bool) (request : SpliceRequest) (rest : List SpliceRequest) :
    flagAfter enabled (request :: rest) = flagAfter request.isAdd rest := by
  cases rest <;> simp [flagAfter, List.getLast?_cons]

@[simp] theorem alternates_append (enabled : Bool) (requests : List SpliceRequest)
    (request : SpliceRequest) :
    alternates enabled (requests ++ [request]) =
      (alternates enabled requests && (request.isAdd == !flagAfter enabled requests)) := by
  induction requests generalizing enabled with
  | nil => cases enabled <;> cases request <;> rfl
  | cons first rest ih =>
    rw [flagAfter_cons]
    cases enabled <;> cases first <;> simp [alternates, ih]

def FlagFollows (enabled : Bool) (c : Control) : Prop :=
  alternates enabled c.requests ∧ c.app.isFpfilterEnabled = flagAfter enabled c.requests

section Steps

variable {enabled : Bool} {c : Control}

theorem flagFollows_enableFpfilterCall (made : Nat → Bool) (follows : FlagFollows enabled c) :
    FlagFollows enabled (enableFpfilterCall made c) := by
  unfold enableFpfilterCall
  split
  · exact follows
  · have off : flagAfter enabled c.requests = false := by simp_all [FlagFollows]
    split
    · exact ⟨by simp [follows.1, off], by simp [enableFpfilter, *]⟩
    · exact follows

theorem flagFollows_disableFpfilterCall (follows : FlagFollows enabled c) :
    FlagFollows enabled (disableFpfilterCall c) := by
  unfold disableFpfilterCall
  split
  · exact follows
  · have enabledNow : flagAfter enabled c.requests = true := by simp_all [FlagFollows]
    exact ⟨by simp [follows.1, enabledNow], by simp [disableFpfilter, *]⟩

theorem handleEntry_cases (made : Nat → Bool) (c : Control) (entry : JsonNode) :
    (getStringMember (getObjectElement entry) usrPromptKeyTarget = some "fpfilter" ∧
      getStringMember (getObjectElement entry) usrPromptKeyAction = some usrPromptKeyEnable ∧
      handleEntry made c entry = enableFpfilterCall made c) ∨
    (getStringMember (getObjectElement entry) usrPromptKeyTarget = some "fpfilter" ∧
      getStringMember (getObjectElement entry) usrPromptKeyAction = some usrPromptKeyDisable ∧
      handleEntry made c entry = disableFpfilterCall c) ∨
    ((handleEntry made c entry).app = c.app ∧
      (handleEntry made c entry).requests = c.requests) := by
  unfold handleEntry
  dsimp only
  by_cases target : getStringMember (getObjectElement entry) usrPromptKeyTarget = some "fpfilter"
  · rw [if_neg (by simp [hasMember_of_getStringMember target]), if_neg (by simp [target])]
    by_cases hasAction : hasMember (getObjectElement entry) usrPromptKeyAction = true
    · rw [if_neg (by simp [hasAction])]
      by_cases enable : getStringMember (getObjectElement entry) usrPromptKeyAction =
          some usrPromptKeyEnable
      · rw [if_pos (by simp [enable])]
        exact .inl ⟨target, enable, rfl⟩
      rw [if_neg (by simpa using enable)]
      by_cases disable : getStringMember (getObjectElement entry) usrPromptKeyAction =
          some usrPromptKeyDisable
      · rw [if_pos (by simp [disable])]
        exact .inr (.inl ⟨target, disable, rfl⟩)
      rw [if_neg (by simpa using disable)]
      refine .inr (.inr ?_)
      split <;> (try split) <;> exact ⟨rfl, rfl⟩
    · rw [if_pos (by simpa using hasAction)]
      exact .inr (.inr ⟨rfl, rfl⟩)
  · by_cases hasTarget : hasMember (getObjectElement entry) usrPromptKeyTarget = true
    · rw [if_neg (by simp [hasTarget]), if_pos (by simpa using target)]
      exact .inr (.inr ⟨rfl, rfl⟩)
    · rw [if_pos (by simpa using hasTarget)]
      exact .inr (.inr ⟨rfl, rfl⟩)

theorem flagFollows_handleEntry (made : Nat → Bool) (entry : JsonNode)
    (follows : FlagFollows enabled c) : FlagFollows enabled (handleEntry made c entry) := by
  obtain ⟨-, -, enable⟩ | ⟨-, -, disable⟩ | ⟨app, requests⟩ :=
    handleEntry_cases made c entry
  · exact enable ▸ flagFollows_enableFpfilterCall made follows
  · exact disable ▸ flagFollows_disableFpfilterCall follows
  · exact ⟨requests ▸ follows.1, by rw [app, requests]; exact follows.2⟩

theorem flagFollows_sessionStep (made : Nat → Bool) (follows : FlagFollows enabled c) :
    ∀ step, FlagFollows enabled (sessionStep made c step)
  | .wait _ => follows
  | .entry entry => flagFollows_handleEntry made entry follows

theorem flagFollows_run (made : Nat → Bool) (steps : List SessionStep)
    (follows : FlagFollows enabled c) :
    FlagFollows enabled (steps.foldl (sessionStep made) c) := by
  induction steps generalizing c with
  | nil => exact follows
  | cons step steps ih => exact ih (flagFollows_sessionStep made follows step)

end Steps

theorem flag_follows_requests (made : Nat → Bool) (app : App) (toggle : Toggle)
    (attempts : Nat) (messages : List (Nat × Option JsonNode)) (handled : Nat) :
    FlagFollows app.isFpfilterEnabled
        (((messages.flatMap messageSteps).take handled).foldl (sessionStep made)
          ⟨app, toggle, attempts, []⟩) ∧
    ∀ (c : Control) (entry : JsonNode),
      (handleEntry made c entry).requests = c.requests ∨
      ∃ members, entry = .object members ∧
        members.lookup "target" = some (.string "fpfilter") ∧
        (members.lookup "action" = some (.string "enable") ∧ c.app.isFpfilterEnabled = false ∨
          members.lookup "action" = some (.string "disable") ∧
            c.app.isFpfilterEnabled = true) := by
  refine ⟨flagFollows_run made _ ⟨alternates_nil _, rfl⟩, fun c entry => ?_⟩
  obtain ⟨target, action, enable⟩ | ⟨target, action, disable⟩ | ⟨-, requests⟩ :=
    handleEntry_cases made c entry
  · obtain ⟨members, rfl, named, asked⟩ := members_of_command target action
    exact (enableFpfilterCall_requests made c).imp (enable ▸ ·)
      fun off => ⟨members, rfl, named, .inl ⟨asked, off⟩⟩
  · obtain ⟨members, rfl, named, asked⟩ := members_of_command target action
    exact (disableFpfilterCall_requests c).imp (disable ▸ ·)
      fun enabledNow => ⟨members, rfl, named, .inr ⟨asked, enabledNow⟩⟩
  · exact .inl requests

end DeepStreamFpFilter.PromptHandler
