import PageLogic.DevTools.Live
import PageLogic.Proofs.DevTools.Exchanges
import PageLogic.Proofs.Text.Spelling
/-!
Questions about elements over a link. They are all put in the same way: the node is resolved to an object, a
function is called on the object, and the object is let go. What the replies to the first two commands are
decides what the answer is, and whether a search goes on after it.
-/
namespace PageLogic.DevTools

/-! ### Questions about elements -/

/-- How a question about an element is put: the function that the page calls on the element, what the
function is given, and how the value that it returns is read. -/
structure Inquiry (α : Type) where
  element : Handle
  function : String
  arguments : List Json
  read : Json → Except Fault α

/-- The inquiry that a question about an element is. Which elements there are is asked in other ways. -/
def inquiry? : (q : Question) → Option (Inquiry q.Value)
  | .attribute e name => some ⟨e, Script.attributeValue, [.string name], asOptionalString⟩
  | .tagName e => some ⟨e, Script.tagName, [], asString⟩
  | .text e => some ⟨e, Script.text, [], asString⟩
  | .size e => some ⟨e, Script.size, [], asSize⟩
  | .location e => some ⟨e, Script.location, [], asLocation⟩
  | .displayed e => some ⟨e, Script.displayed, [], asBool⟩
  | .enabled e => some ⟨e, Script.enabled, [], asBool⟩
  | .exists e => some ⟨e, Script.attached, [], asBool⟩
  | .selected e => some ⟨e, Script.selected, [], asBool⟩
  | .visible e => some ⟨e, Script.visible, [], asBool⟩
  | .elements _ | .descendants _ _ | .title | .currentUrl => none

/-- The value is a number in a field of that name. -/
def HasNumber (v : Json) (name : String) : Prop :=
  ∃ number, v.get? name = some (.number number)

/-- The question takes a value of this kind for an answer. -/
def Accepts : Question → Json → Prop
  | .attribute _ _, v => v = .null ∨ ∃ text, v = .string text
  | .tagName _, v | .text _, v | .title, v | .currentUrl, v => ∃ text, v = .string text
  | .size _, v => HasNumber v "width" ∧ HasNumber v "height"
  | .location _, v => HasNumber v "x" ∧ HasNumber v "y"
  | .displayed _, v | .enabled _, v | .exists _, v | .selected _, v | .visible _, v => ∃ b, v = .bool b
  | .elements _, _ | .descendants _ _, _ => False

/-- The handle is a number of 64 bits with sign, as the lasting numbers of nodes are. -/
def HoldsNumber (e : Handle) (n : Int) : Prop :=
  Text.Spells e.id.toList n ∧ -(Word.signedLimit : Int) ≤ n ∧ n < Word.signedLimit

/-! ### What is sent, and what comes back -/

def resolveCommand (n : Int) : String × Json :=
  ("DOM.resolveNode",
    .object [("backendNodeId", Talk.int n), ("objectGroup", .string objectGroup)])

def Inquiry.callCommand {α : Type} (c : Inquiry α) (object : String) : String × Json :=
  ("Runtime.callFunctionOn", .object [
    ("arguments", .array (c.arguments.map fun a => .object [("value", a)])),
    ("functionDeclaration", .string c.function), ("objectId", .string object),
    ("returnByValue", .bool true)])

def releaseCommand : String × Json :=
  ("Runtime.releaseObjectGroup", .object [("objectGroup", .string objectGroup)])

/-- The object in the result of resolving a node. -/
def objectId? (r : Json) : Option String :=
  ((r.get? "object").bind (·.get? "objectId")).bind Json.string?

/-- The value that a function returned. -/
def returnedValue (r : Json) : Json :=
  ((r.get? "result").bind (·.get? "value")).getD .null

/-- The function threw an exception. -/
def Throws (r : Json) : Prop :=
  ∃ details, r.get? "exceptionDetails" = some details

/-- The object that a reply tells of. -/
def Reply.object? : Reply → Option String
  | .result r => objectId? r
  | .refusal | .silence => none

variable {σ α : Type} {link : Link σ} {s : σ} {e : Handle} {n : Int} {q : Question}

/-! ### Handles and values -/

theorem backendId_eq_ok_iff : backendId e = .ok n ↔ HoldsNumber e n := by
  have hRead : Text.intWithin? Word.signedLimit e.id.toList = some n ↔ HoldsNumber e n :=
    Text.intWithin?_eq_some_iff (by decide)
  rw [← hRead, backendId]
  cases Text.intWithin? Word.signedLimit e.id.toList <;> simp

theorem backendId_of_not_holdsNumber (h : ¬ ∃ n, HoldsNumber e n) :
    backendId e = .error ⟨.invalidElementState, e.display ++ " is not a CDP element handle"⟩ := by
  have hNone : Text.intWithin? Word.signedLimit e.id.toList = none := by
    rw [Option.eq_none_iff_forall_ne_some]
    intro n hn
    exact h ⟨n, (Text.intWithin?_eq_some_iff (by decide)).mp hn⟩
  rw [backendId, hNone]

/-- A value is read, or refused as unexpected. -/
inductive Reads {α : Type} (accepted : Prop) : Except Fault α → Prop where
  | value (h : accepted) (a : α) : Reads accepted (.ok a)
  | fault (h : ¬ accepted) (detail : String) : Reads accepted (.error ⟨.unexpected, detail⟩)

theorem reads_asString (v : Json) : Reads (∃ text, v = .string text) (asString v) := by
  cases v with
  | string text => exact .value ⟨text, rfl⟩ text
  | _ => exact .fault nofun _

theorem reads_asBool (v : Json) : Reads (∃ b, v = .bool b) (asBool v) := by
  cases v with
  | bool b => exact .value ⟨b, rfl⟩ b
  | _ => exact .fault nofun _

theorem reads_asOptionalString (v : Json) :
    Reads (v = .null ∨ ∃ text, v = .string text) (asOptionalString v) := by
  cases v with
  | null => exact .value (.inl rfl) none
  | string text => exact .value (.inr ⟨text, rfl⟩) (some text)
  | _ => exact .fault (by simp) _

theorem reads_intField (v : Json) (name : String) : Reads (HasNumber v name) (intField v name) := by
  unfold intField
  split
  · next number h => exact .value ⟨number, h⟩ _
  · next h => exact .fault (fun ⟨number, hNumber⟩ => h number hNumber) _

/-- Two numbers are read, the first one first. -/
theorem Reads.pair {β : Type} {a b : Prop} {x y : Except Fault Int} (hx : Reads a x) (hy : Reads b y)
    (f : Int → Int → β) : Reads (a ∧ b) (x.bind fun i => y.bind fun j => .ok (f i j)) := by
  cases hx with
  | fault h detail => exact .fault (fun hBoth => h hBoth.1) detail
  | value h i =>
      cases hy with
      | fault h' detail => exact .fault (fun hBoth => h' hBoth.2) detail
      | value h' j => exact .value ⟨h, h'⟩ _

/-- A question reads the values that it accepts, and no others. -/
theorem reads_of_inquiry? {c : Inquiry q.Value} (hq : inquiry? q = some c) (v : Json) :
    Reads (Accepts q v) (c.read v) := by
  cases q with
  | elements | descendants | title | currentUrl => cases hq
  | «attribute» => cases hq; exact reads_asOptionalString v
  | tagName | text => cases hq; exact reads_asString v
  | size | location => cases hq; exact (reads_intField v _).pair (reads_intField v _) _
  | _ => cases hq; exact reads_asBool v

theorem ask_of_inquiry? {c : Inquiry q.Value} (hq : inquiry? q = some c) :
    ask q = reading c.read (callOn c.element c.function c.arguments) := by
  cases q with
  | elements | descendants | title | currentUrl => cases hq
  | _ => cases hq; rfl

/-! ### How an inquiry goes -/

theorem run_callOn (h : backendId e = .ok n) (function : String) (arguments : List Json) :
    (callOn e function arguments).run link s =
      match (Talk.resolveNode n objectGroup).run link s with
      | (.ok object, s) =>
        let called := (Talk.callFunctionOn object function arguments).run link s
        (called.1.map .ok, ((Talk.releaseGroup objectGroup).run link called.2).2)
      | (.error f, s) => (.error f, s) := by
  rw [callOn, h]
  simp only [Talk.run_andThen, Talk.run_attempt, Talk.run_map, Talk.run_ofExcept]
  generalize (Talk.resolveNode n objectGroup).run link s = resolved
  obtain ⟨_ | _, _⟩ := resolved <;> rfl

/-- The objects of the inquiry are let go once there are any, whatever came of the call. -/
theorem commands_callOn (c : Inquiry α) (h : backendId c.element = .ok n) :
    (callOn c.element c.function c.arguments).commands link s =
      resolveCommand n ::
        match ((Talk.resolveNode n objectGroup).run link s).1 with
        | .ok object => [c.callCommand object, releaseCommand]
        | .error _ => [] := by
  have hResolve : (Talk.resolveNode n objectGroup).commands link s = [resolveCommand n] :=
    Talk.commands_command_andThen (fun _ _ => Talk.commands_required _ _ _ _) _ _ _
  have hCall (object : String) (s : σ) :
      (Talk.callFunctionOn object c.function c.arguments).commands link s = [c.callCommand object] :=
    Talk.commands_command_andThen (fun _ _ => Talk.commands_scriptValue _ _ _) _ _ _
  have hRelease (s : σ) : (Talk.releaseGroup objectGroup).commands link s = [releaseCommand] :=
    Talk.commands_command_andThen (fun _ _ => rfl) _ _ _
  have hRest (r : Except Failure Json) (s : σ) :
      ((Talk.ofExcept r).map (Except.ok (ε := Fault))).commands link s = [] := by
    cases r <;> rfl
  rw [callOn, h]
  simp only [Talk.commands_andThen, Talk.commands_attempt, hResolve, hCall, hRelease, hRest]
  generalize (Talk.resolveNode n objectGroup).run link s = resolved
  obtain ⟨_ | _, _⟩ := resolved <;> rfl

/-- The answer is settled once the function was called. -/
theorem answer_of_inquiry? {c : Inquiry q.Value} (hq : inquiry? q = some c)
    (h : backendId c.element = .ok n) :
    ((oracle link).answer q s).1 =
      match (Talk.resolveNode n objectGroup).run link s with
      | (.ok object, s) =>
        match ((Talk.callFunctionOn object c.function c.arguments).run link s).1 with
        | .ok v => c.read v
        | .error f => .error f.toFault
      | (.error f, _) => .error f.toFault := by
  simp only [oracle, ask_of_inquiry? hq, reading, Talk.run_map, run_callOn h]
  generalize (Talk.resolveNode n objectGroup).run link s = resolved
  obtain ⟨f | object, s⟩ := resolved
  · rfl
  · simp only
    generalize (Talk.callFunctionOn object c.function c.arguments).run link s = called
    obtain ⟨f | v, s⟩ := called <;> rfl

/-! ### What an inquiry comes to -/

/-- How an inquiry ends, from the reply to its first command and the replies that the function call would
bring on each object: with a fault that is recognized, with an unexpected one, or with the value read. -/
inductive Ends {α : Type} (second : String → Reply) (read : Json → Except Fault α) :
    Reply → Except Fault α → Prop where
  | refused {f : Fault} (hf : f.isRecognized = true) : Ends second read .refusal (.error f)
  | lost {f : Fault} (hf : f.kind = .unexpected) : Ends second read .silence (.error f)
  | noObject {r : Json} (hNone : objectId? r = none) {f : Fault} (hf : f.kind = .unexpected) :
      Ends second read (.result r) (.error f)
  | callRefused {object : String} {r : Json} (hObject : objectId? r = some object)
      (hCall : second object = .refusal) {f : Fault} (hf : f.isRecognized = true) :
      Ends second read (.result r) (.error f)
  | callLost {object : String} {r : Json} (hObject : objectId? r = some object)
      (hCall : second object = .silence) {f : Fault} (hf : f.kind = .unexpected) :
      Ends second read (.result r) (.error f)
  | threw {object : String} {r called : Json} (hObject : objectId? r = some object)
      (hCall : second object = .result called) (hThrows : Throws called) {f : Fault}
      (hf : f.isRecognized = true) : Ends second read (.result r) (.error f)
  | returned {object : String} {r called : Json} (hObject : objectId? r = some object)
      (hCall : second object = .result called) (hReturns : ¬ Throws called) :
      Ends second read (.result r) (read (returnedValue called))

namespace Ends

variable {first : Reply} {second : String → Reply} {read : Json → Except Fault α} {result : Except Fault α}
  {accepted : Json → Prop}

/-- The fault is recognized exactly if one of the two replies is an error, or the function threw. -/
theorem recognized_iff (h : Ends second read first result) (hRead : ∀ v, Reads (accepted v) (read v)) :
    (∃ f, result = .error f ∧ f.isRecognized = true) ↔
      first = .refusal ∨ ∃ object, first.object? = some object ∧
        (second object = .refusal ∨ ∃ r, second object = .result r ∧ Throws r) := by
  cases h with
  | @returned object r called hObject hCall hReturns =>
      -- The reader may still refuse the value, but never with a fault that is recognized.
      have hValue := hRead (returnedValue called)
      generalize read (returnedValue called) = value at hValue ⊢
      cases hValue <;>
        simp [Reply.object?, hObject, hCall, hReturns, Fault.isRecognized, FaultKind.isRecognized]
  | _ => simp_all [Reply.object?, Fault.isRecognized, FaultKind.isRecognized]

/-- It is unexpected exactly if one of the two replies is missing, the first one tells of no object, or the
value that was returned is not accepted. -/
theorem unexpected_iff (h : Ends second read first result) (hRead : ∀ v, Reads (accepted v) (read v)) :
    (∃ f, result = .error f ∧ f.kind = .unexpected) ↔
      first = .silence ∨ (∃ r, first = .result r ∧ objectId? r = none) ∨
        ∃ object, first.object? = some object ∧ (second object = .silence ∨
          ∃ r, second object = .result r ∧ ¬ Throws r ∧ ¬ accepted (returnedValue r)) := by
  have hOther {f : Fault} (hf : f.isRecognized = true) : f.kind ≠ .unexpected := by
    intro hKind
    simp [Fault.isRecognized, hKind, FaultKind.isRecognized] at hf
  cases h with
  | @returned object r called hObject hCall hReturns =>
      have hValue := hRead (returnedValue called)
      generalize read (returnedValue called) = value at hValue ⊢
      cases hValue <;> simp_all [Reply.object?]
  | _ => simp_all [Reply.object?]

/-- Otherwise it is the value, as it is read. -/
theorem ok_iff (h : Ends second read first result) (a : α) :
    result = .ok a ↔ ∃ object r, first.object? = some object ∧ second object = .result r ∧
      ¬ Throws r ∧ read (returnedValue r) = .ok a := by
  cases h <;> simp_all [Reply.object?]

end Ends

section

variable {secs : Nat} {respond : String → Json → σ → Outcome × σ} {c : Inquiry q.Value}

/-- How a command of an inquiry ends, and what state it leaves. -/
abbrev outcomeOf (respond : String → Json → σ → Outcome × σ) (command : String × Json) (s : σ) :
    Outcome × σ :=
  respond command.1 command.2 s

theorem resolveNode_eq (n : Int) :
    Talk.resolveNode n objectGroup =
      (Talk.command (resolveCommand n).1 (resolveCommand n).2).andThen fun r =>
        Talk.required "DOM.resolveNode without objectId" (objectId? r) :=
  rfl

theorem callFunctionOn_eq (c : Inquiry α) (object : String) :
    Talk.callFunctionOn object c.function c.arguments =
      (Talk.command (c.callCommand object).1 (c.callCommand object).2).andThen Talk.scriptValue :=
  rfl

/-- Once there is an object, the reply to the call decides. -/
theorem ends_called {r : Json} {object : String} (hObject : objectId? r = some object) :
    Ends (fun object => (outcomeOf respond (c.callCommand object) s).1.reply) c.read (.result r)
      (match ((Talk.callFunctionOn object c.function c.arguments).run (.ofOutcomes secs respond) s).1 with
        | .ok v => c.read v
        | .error f => .error f.toFault) := by
  rw [callFunctionOn_eq]
  cases hCall : (outcomeOf respond (c.callCommand object) s).1.reply with
  | refusal =>
      obtain ⟨code, message, hRun⟩ := run_andThen_of_refusal secs hCall Talk.scriptValue
      rw [hRun]
      exact .callRefused hObject hCall (Failure.isRecognized_protocol code message)
  | silence =>
      obtain ⟨f, hOther, hRun⟩ := run_andThen_of_silence secs hCall Talk.scriptValue
      rw [hRun]
      exact .callLost hObject hCall (Failure.kind_toFault hOther)
  | result called =>
      rw [run_andThen_of_result secs hCall, Talk.scriptValue]
      cases hDetails : called.get? "exceptionDetails" with
      | some details => exact .threw hObject hCall ⟨details, hDetails⟩ (Failure.isRecognized_protocol _ _)
      | none =>
          refine .returned hObject hCall ?_
          rintro ⟨details, hSome⟩
          rw [hDetails] at hSome
          cases hSome

/-- An inquiry about a number ends as the replies to its first two commands say. -/
theorem ends_answer (hq : inquiry? q = some c) (h : backendId c.element = .ok n) :
    Ends (fun object =>
        (outcomeOf respond (c.callCommand object) (outcomeOf respond (resolveCommand n) s).2).1.reply)
      c.read (outcomeOf respond (resolveCommand n) s).1.reply
      ((oracle (.ofOutcomes secs respond)).answer q s).1 := by
  rw [answer_of_inquiry? hq h, resolveNode_eq]
  cases hFirst : (outcomeOf respond (resolveCommand n) s).1.reply with
  | refusal =>
      obtain ⟨code, message, hRun⟩ := run_andThen_of_refusal secs hFirst _
      rw [hRun]
      exact .refused (Failure.isRecognized_protocol code message)
  | silence =>
      obtain ⟨f, hOther, hRun⟩ := run_andThen_of_silence secs hFirst _
      rw [hRun]
      exact .lost (Failure.kind_toFault hOther)
  | result r =>
      rw [run_andThen_of_result secs hFirst]
      cases hObject : objectId? r with
      | none => exact .noObject hObject rfl
      | some object => exact ends_called hObject

/-- The first command yields the object that its reply tells of, or fails. -/
theorem run_resolveNode_fst (secs : Nat) (respond : String → Json → σ → Outcome × σ) (n : Int) (s : σ) :
    match (outcomeOf respond (resolveCommand n) s).1.reply.object? with
    | some object =>
      ((Talk.resolveNode n objectGroup).run (.ofOutcomes secs respond) s).1 = .ok object
    | none => ∃ f, ((Talk.resolveNode n objectGroup).run (.ofOutcomes secs respond) s).1 = .error f := by
  rw [resolveNode_eq]
  cases hFirst : (outcomeOf respond (resolveCommand n) s).1.reply with
  | refusal =>
      obtain ⟨code, message, hRun⟩ := run_andThen_of_refusal secs hFirst _
      rw [hRun]
      exact ⟨_, rfl⟩
  | silence =>
      obtain ⟨f, _, hRun⟩ := run_andThen_of_silence secs hFirst _
      rw [hRun]
      exact ⟨_, rfl⟩
  | result r =>
      rw [run_andThen_of_result secs hFirst, Reply.object?]
      cases objectId? r with
      | none => exact ⟨_, rfl⟩
      | some object => rfl

/-- The objects are let go exactly if there are any. -/
theorem commands_ask (hq : inquiry? q = some c) (h : backendId c.element = .ok n) :
    (ask q).commands (.ofOutcomes secs respond) s =
      resolveCommand n ::
        match (outcomeOf respond (resolveCommand n) s).1.reply.object? with
        | some object => [c.callCommand object, releaseCommand]
        | none => [] := by
  have hFirst := run_resolveNode_fst secs respond n s
  rw [ask_of_inquiry? hq, reading, Talk.commands_map, commands_callOn c h]
  cases hObject : (outcomeOf respond (resolveCommand n) s).1.reply.object? with
  | some object =>
      rw [hObject] at hFirst
      rw [hFirst]
  | none =>
      rw [hObject] at hFirst
      obtain ⟨f, hFailed⟩ := hFirst
      rw [hFailed]

/-- How the objects are let go makes no difference. -/
theorem answer_congr_of_release {respond' : String → Json → σ → Outcome × σ}
    (hSame : ∀ method params s, method ≠ releaseCommand.1 →
      respond' method params s = respond method params s)
    (hq : inquiry? q = some c) (h : backendId c.element = .ok n) :
    ((oracle (.ofOutcomes secs respond')).answer q s).1 =
      ((oracle (.ofOutcomes secs respond)).answer q s).1 := by
  have hRun {β : Type} (command : String × Json) (hMethod : command.1 ≠ releaseCommand.1)
      (f : Json → Talk β)
      (hf : ∀ r s, (f r).run (.ofOutcomes secs respond') s = (f r).run (.ofOutcomes secs respond) s)
      (s : σ) : ((Talk.command command.1 command.2).andThen f).run (.ofOutcomes secs respond') s =
        ((Talk.command command.1 command.2).andThen f).run (.ofOutcomes secs respond) s := by
    rw [run_command_andThen, run_command_andThen, hSame _ _ _ hMethod]
    simp only [hf]
  have hResolve (s : σ) : (Talk.resolveNode n objectGroup).run (.ofOutcomes secs respond') s =
      (Talk.resolveNode n objectGroup).run (.ofOutcomes secs respond) s := by
    rw [resolveNode_eq]
    refine hRun (resolveCommand n) (by simp [resolveCommand, releaseCommand]) _ (fun r s => ?_) s
    cases objectId? r <;> rfl
  have hCall (object : String) (s : σ) :
      (Talk.callFunctionOn object c.function c.arguments).run (.ofOutcomes secs respond') s =
        (Talk.callFunctionOn object c.function c.arguments).run (.ofOutcomes secs respond) s := by
    rw [callFunctionOn_eq]
    refine hRun (c.callCommand object) (by simp [Inquiry.callCommand, releaseCommand]) _ (fun r s => ?_) s
    unfold Talk.scriptValue
    split <;> rfl
  rw [answer_of_inquiry? hq h, answer_of_inquiry? hq h, hResolve]
  simp only [hCall]

end

/-- Every question about an element follows one protocol, however the other side ends its commands. About a
handle that holds no number nothing is sent. Otherwise the node is resolved; if that tells of an object, and
only then, the function is called on it and the objects are let go, which is without influence on the answer.
The answer is a recognized fault exactly if the browser answers one of the first two commands with an error or
the function throws, and an unexpected one exactly if one of them brings back nothing, there is no object, or
the question does not accept the value. -/
theorem element_questions_follow_protocol (secs : Nat) (respond : String → Json → σ → Outcome × σ)
    (q : Question) (c : Inquiry q.Value) (hq : inquiry? q = some c) (s : σ) :
    ((¬ ∃ n, HoldsNumber c.element n) →
      (oracle (.ofOutcomes secs respond)).answer q s =
          (.error ⟨.invalidElementState, c.element.display ++ " is not a CDP element handle"⟩, s) ∧
        (ask q).commands (.ofOutcomes secs respond) s = []) ∧
    ∀ n, HoldsNumber c.element n →
      let first := outcomeOf respond (resolveCommand n) s
      let second object := (outcomeOf respond (c.callCommand object) first.2).1.reply
      let answer := ((oracle (.ofOutcomes secs respond)).answer q s).1
      (ask q).commands (.ofOutcomes secs respond) s =
          resolveCommand n ::
            (match first.1.reply.object? with
            | some object => [c.callCommand object, releaseCommand]
            | none => []) ∧
        (∀ respond' : String → Json → σ → Outcome × σ,
          (∀ method params s, method ≠ releaseCommand.1 →
            respond' method params s = respond method params s) →
          ((oracle (.ofOutcomes secs respond')).answer q s).1 = answer) ∧
        ((∃ f, answer = .error f ∧ f.isRecognized = true) ↔
          first.1.reply = .refusal ∨ ∃ object, first.1.reply.object? = some object ∧
            (second object = .refusal ∨ ∃ r, second object = .result r ∧ Throws r)) ∧
        ((∃ f, answer = .error f ∧ f.kind = .unexpected) ↔
          first.1.reply = .silence ∨ (∃ r, first.1.reply = .result r ∧ objectId? r = none) ∨
            ∃ object, first.1.reply.object? = some object ∧ (second object = .silence ∨
              ∃ r, second object = .result r ∧ ¬ Throws r ∧ ¬ Accepts q (returnedValue r))) ∧
        ∀ a, answer = .ok a ↔ ∃ object r, first.1.reply.object? = some object ∧
          second object = .result r ∧ ¬ Throws r ∧ c.read (returnedValue r) = .ok a := by
  refine ⟨fun hNone => ?_, fun n hNumber => ?_⟩
  · have hId := backendId_of_not_holdsNumber hNone
    simp only [oracle, ask_of_inquiry? hq, callOn, hId]
    exact ⟨rfl, rfl⟩
  · have hId := backendId_eq_ok_iff.mpr hNumber
    have hRead := reads_of_inquiry? hq
    have hEnds : Ends _ c.read _ ((oracle (.ofOutcomes secs respond)).answer q s).1 := ends_answer hq hId
    exact ⟨commands_ask hq hId, fun respond' hSame => answer_congr_of_release hSame hq hId,
      hEnds.recognized_iff hRead, hEnds.unexpected_iff hRead, hEnds.ok_iff⟩

/-- The page resolves every node, and says "div" of it. -/
theorem element_questions_follow_protocol_tagName :
    let respond (method : String) (_ : Json) (count : Nat) : Outcome × Nat :=
      (if method = "DOM.resolveNode" then
          .answered (.object [("result", .object [("object", .object [("objectId", .string "1")])])])
        else if method = "Runtime.callFunctionOn" then
          .answered (.object [("result", .object [("result", .object [("value", .string "div")])])])
        else .timedOut, count + 1)
    let c : Inquiry String := ⟨⟨"7"⟩, Script.tagName, [], asString⟩
    inquiry? (.tagName ⟨"7"⟩) = some c ∧ HoldsNumber c.element 7 ∧
      (ask (.tagName ⟨"7"⟩)).commands (.ofOutcomes 30 respond) 0 =
        [resolveCommand 7, c.callCommand "1", releaseCommand] ∧
      ((oracle (.ofOutcomes 30 respond)).answer (.tagName ⟨"7"⟩) 0).1 = .ok "div" := by
  intro respond c
  have hNumber : HoldsNumber c.element 7 := 
    ⟨⟨['7'], 7, by decide, .inl ⟨.inl (by decide), rfl⟩⟩, by decide, by decide⟩
  obtain ⟨hCommands, -, -, -, hOk⟩ :=
    (element_questions_follow_protocol 30 respond (.tagName ⟨"7"⟩) c rfl 0).2 7 hNumber
  exact ⟨rfl, hNumber, hCommands, (hOk "div").mpr ⟨"1", _, rfl, rfl, nofun, rfl⟩⟩

end PageLogic.DevTools
