import PageLogic.DevTools.Endpoint
import PageLogic.Proofs.DevTools.Talks
/-!
What is said in a talk: the commands that it sends, in order, and what each of them brings back. The other
side of a link decides how every command ends, from a state of its own that each command may change.
-/
namespace PageLogic.DevTools

variable {σ α β : Type} {link : Link σ}

/-! ### Commands -/

namespace Talk

/-- The commands that a talk sends over a link, in order. -/
def commands (link : Link σ) : Talk α → σ → List (String × Json)
  | .value _, _ => []
  | .failure _, _ => []
  | .send method params next, s =>
    let (r, s) := link.exchange method params s
    (method, params) :: (next r).commands link s

theorem andThen_assoc {γ : Type} (t : Talk α) (f : α → Talk β) (g : β → Talk γ) :
    (t.andThen f).andThen g = t.andThen fun a => (f a).andThen g := by
  induction t with
  | value a => rfl
  | failure e => rfl
  | send m params next ih => exact congrArg (send m params) (funext fun r => ih r)

theorem run_attempt (link : Link σ) (t : Talk α) (f : Except Failure α → Talk β) (s : σ) :
    (t.attempt f).run link s = (f (t.run link s).1).run link (t.run link s).2 := by
  induction t generalizing s with
  | value a => rfl
  | failure e => rfl
  | send method params next ih => exact ih _ _

theorem run_map (link : Link σ) (t : Talk α) (f : α → β) (s : σ) :
    (t.map f).run link s = ((t.run link s).1.map f, (t.run link s).2) := by
  rw [map, run_andThen]
  generalize t.run link s = result
  obtain ⟨_ | _, s'⟩ := result <;> rfl

theorem run_ofExcept (link : Link σ) (r : Except Failure α) (s : σ) :
    (ofExcept r).run link s = (r, s) := by
  cases r <;> rfl

theorem run_command (link : Link σ) (method : String) (params : Json) (s : σ) :
    (command method params).run link s = link.exchange method params s :=
  run_ofExcept link _ _

theorem commands_andThen (link : Link σ) (t : Talk α) (f : α → Talk β) (s : σ) :
    (t.andThen f).commands link s = t.commands link s ++
      match t.run link s with
      | (.ok a, s) => (f a).commands link s
      | (.error _, _) => [] := by
  induction t generalizing s with
  | value a => rfl
  | failure e => rfl
  | send method params next ih => exact congrArg ((method, params) :: ·) (ih _ _)

theorem commands_attempt (link : Link σ) (t : Talk α) (f : Except Failure α → Talk β) (s : σ) :
    (t.attempt f).commands link s =
      t.commands link s ++ (f (t.run link s).1).commands link (t.run link s).2 := by
  induction t generalizing s with
  | value a => rfl
  | failure e => rfl
  | send method params next ih => exact congrArg ((method, params) :: ·) (ih _ _)

@[simp] theorem commands_ofExcept (link : Link σ) (r : Except Failure α) (s : σ) :
    (ofExcept r).commands link s = [] := by
  cases r <;> rfl

@[simp] theorem commands_required (link : Link σ) (missing : String) (a : Option α) (s : σ) :
    (required missing a).commands link s = [] := by
  cases a <;> rfl

@[simp] theorem commands_scriptValue (link : Link σ) (result : Json) (s : σ) :
    (scriptValue result).commands link s = [] := by
  unfold scriptValue
  split <;> rfl

@[simp] theorem commands_command (link : Link σ) (method : String) (params : Json) (s : σ) :
    (command method params).commands link s = [(method, params)] :=
  congrArg ((method, params) :: ·) (commands_ofExcept link _ _)

@[simp] theorem commands_map (link : Link σ) (t : Talk α) (f : α → β) (s : σ) :
    (t.map f).commands link s = t.commands link s := by
  rw [map, commands_andThen]
  split <;> exact List.append_nil _

/-- What is read off the result of one command sends no other. -/
theorem commands_command_andThen {f : Json → Talk α} (hf : ∀ r s, (f r).commands link s = [])
    (method : String) (params : Json) (s : σ) :
    ((command method params).andThen f).commands link s = [(method, params)] := by
  rw [commands_andThen, commands_command]
  split
  · rw [hf]
    rfl
  · rfl

end Talk

/-! ### Replies -/

/-- A link whose other side decides how each command ends. A command may take `secs` seconds. -/
def Link.ofOutcomes (secs : Nat) (respond : (method : String) → (params : Json) → σ → Outcome × σ) :
    Link σ where
  exchange method params s :=
    let (outcome, s) := respond method params s
    (outcome.toResult method secs, s)

/-- What a command brings back. -/
inductive Reply where
  /-- A message that carries an error. -/
  | refusal
  /-- No message: the time was up, or the connection was lost. -/
  | silence
  /-- The result in a message that carries no error. -/
  | result (r : Json)

namespace Outcome

variable {o : Outcome} {method : String} {secs : Nat}

def reply : Outcome → Reply
  | .answered message =>
    match message.get? "error" with
    | some _ => .refusal
    | none => .result ((message.get? "result").getD .null)
  | .timedOut | .closed | .unsent => .silence

theorem toResult_of_refusal (h : o.reply = .refusal) (method : String) (secs : Nat) :
    ∃ code message, o.toResult method secs = .error (.protocol code message) := by
  cases o with
  | answered message =>
      cases hError : message.get? "error" with
      | some error =>
          refine ⟨((error.get? "code").bind Json.int?).getD 0,
            ((error.get? "message").bind Json.string?).getD "", ?_⟩
          simp only [toResult, hError]
      | none => simp [reply, hError] at h
  | _ => cases h

theorem toResult_of_silence (h : o.reply = .silence) (method : String) (secs : Nat) :
    ∃ f, o.toResult method secs = .error f ∧ ∀ code message, f ≠ .protocol code message := by
  cases o with
  | answered message => cases hError : message.get? "error" <;> simp [reply, hError] at h
  | _ => exact ⟨_, rfl, nofun⟩

theorem toResult_of_result {r : Json} (h : o.reply = .result r) (method : String) (secs : Nat) :
    o.toResult method secs = .ok r := by
  cases o with
  | answered message =>
      cases hError : message.get? "error" with
      | some error => simp [reply, hError] at h
      | none => simpa [reply, toResult, hError] using h
  | _ => cases h

end Outcome

section

variable {secs : Nat} {respond : String → Json → σ → Outcome × σ} {method : String} {params : Json} {s : σ}

theorem run_command_andThen (f : Json → Talk α) :
    ((Talk.command method params).andThen f).run (.ofOutcomes secs respond) s =
      match (respond method params s).1.toResult method secs with
      | .ok r => (f r).run (.ofOutcomes secs respond) (respond method params s).2
      | .error e => (.error e, (respond method params s).2) := by
  rw [Talk.run_andThen, Talk.run_command]
  simp only [Link.ofOutcomes]
  cases (respond method params s).1.toResult method secs <;> rfl

theorem run_andThen_of_result (secs : Nat) {r : Json} (h : (respond method params s).1.reply = .result r)
    (f : Json → Talk α) :
    ((Talk.command method params).andThen f).run (.ofOutcomes secs respond) s =
      (f r).run (.ofOutcomes secs respond) (respond method params s).2 := by
  rw [run_command_andThen, Outcome.toResult_of_result h]

theorem run_andThen_of_refusal (secs : Nat) (h : (respond method params s).1.reply = .refusal)
    (f : Json → Talk α) :
    ∃ code message, ((Talk.command method params).andThen f).run (.ofOutcomes secs respond) s =
      (.error (.protocol code message), (respond method params s).2) := by
  obtain ⟨code, message, hResult⟩ := Outcome.toResult_of_refusal h method secs
  exact ⟨code, message, by rw [run_command_andThen, hResult]⟩

theorem run_andThen_of_silence (secs : Nat) (h : (respond method params s).1.reply = .silence)
    (f : Json → Talk α) :
    ∃ e, (∀ code message, e ≠ .protocol code message) ∧
      ((Talk.command method params).andThen f).run (.ofOutcomes secs respond) s =
        (.error e, (respond method params s).2) := by
  obtain ⟨e, hResult, hOther⟩ := Outcome.toResult_of_silence h method secs
  exact ⟨e, hOther, by rw [run_command_andThen, hResult]⟩

end

/-- A failed command is a recognized fault exactly if the browser answered with an error. -/
theorem Failure.isRecognized_toFault (f : Failure) :
    f.toFault.isRecognized = true ↔ ∃ code message, f = .protocol code message := by
  cases f with
  | protocol code message =>
      refine ⟨fun _ => ⟨code, message, rfl⟩, fun _ => ?_⟩
      simp only [toFault]
      split <;> rfl
  | _ => exact ⟨nofun, nofun⟩

/-- Any other failure is an unexpected one. -/
theorem Failure.kind_toFault {f : Failure} (h : ∀ code message, f ≠ .protocol code message) :
    f.toFault.kind = .unexpected := by
  cases f with
  | protocol code message => exact absurd rfl (h code message)
  | _ => rfl

theorem Failure.isRecognized_protocol (code : Int) (message : String) :
    (Failure.protocol code message).toFault.isRecognized = true :=
  (Failure.isRecognized_toFault _).mpr ⟨code, message, rfl⟩

end PageLogic.DevTools
