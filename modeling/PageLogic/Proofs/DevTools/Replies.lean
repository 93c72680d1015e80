import PageLogic.Proofs.DevTools.Steps
import Mathlib.Data.List.TakeWhile
/-!
Replies reach the commands that they answer. Whatever happens in between, a command ends once: with the
first message that carries its number after it entered itself, or because its time was up, or with trouble
on the way. Messages for nobody make no difference to how any command ends.
-/
namespace PageLogic.DevTools

/-- The first message that carries the number of a command after the command has entered itself. -/
def firstReply? (n : Nat) (events : List Event) : Option Json :=
  (events.dropWhile fun e => !e.enters n).findSome? (·.replyTo? n)

/-- The event is a step of the command numbered `n`. -/
def Event.isOf (n : Nat) : Event → Bool
  | .enter id | .handOn id | .wake id | .giveUp id | .withdraw id => id == n
  | _ => false

variable {n : Nat} {events : List Event} {e : Event}

theorem dropWhile_enters_eq_nil_iff :
    (events.dropWhile fun e => !e.enters n) = [] ↔ events.any (·.enters n) = false := by
  simp [List.dropWhile_eq_nil_iff]

theorem firstReply?_eq_none (h : events.any (·.enters n) = false) : firstReply? n events = none := by
  rw [firstReply?, dropWhile_enters_eq_nil_iff.mpr h]
  rfl

/-- Only what comes after the command has entered itself counts, and of that the first. -/
theorem firstReply?_concat (h : events.any (·.enters n) = true) :
    firstReply? n (events ++ [e]) = (firstReply? n events).or (e.replyTo? n) := by
  have hDrop : (events.dropWhile fun e => !e.enters n).isEmpty = false := by
    rw [List.isEmpty_eq_false_iff, ne_eq, dropWhile_enters_eq_nil_iff, h]
    nofun
  rw [firstReply?, List.dropWhile_append, hDrop]
  simp [firstReply?, List.findSome?_append]

theorem firstReply?_concat_of_none (h : e.replyTo? n = none) :
    firstReply? n (events ++ [e]) = firstReply? n events := by
  cases hAny : events.any (·.enters n) with
  | true => rw [firstReply?_concat hAny, h, Option.or_none]
  | false =>
      rw [firstReply?_eq_none hAny, firstReply?, List.dropWhile_append,
        dropWhile_enters_eq_nil_iff.mpr hAny, List.dropWhile_cons]
      cases e.enters n <;> simp [h]

namespace Dispatch

variable {d d' : Dispatch} {c : Call} {call call' : Option Call} {o : Outcome}

/-! ### What a command has found -/

/-- The state of a command, or its absence, as the events so far account for it: while it holds its entry
no message with its number has come, and what is in its slot is the first that came. -/
def Traced (events : List Event) (n : Nat) : Option Call → Prop
  | none => events.any (·.enters n) = false
  | some c =>
    (events.any (·.enters n) = true ↔ c.stage ≠ .numbered) ∧
      (c.HoldsEntry → firstReply? n events = none) ∧
      ∀ m, c.slot = .filled m → firstReply? n events = some m

theorem Traced.keep (h : Traced events n call) (hEnters : e.enters n = false)
    (hReply : e.replyTo? n = none ∨ ∀ c ∈ call, ¬ c.HoldsEntry) : Traced (events ++ [e]) n call := by
  have hAny : (events ++ [e]).any (·.enters n) = events.any (·.enters n) := by
    simp [hEnters]
  cases call with
  | none => exact hAny.trans h
  | some c =>
      obtain ⟨hEntered, hNone, hSome⟩ := h
      refine ⟨hAny ▸ hEntered, fun hEntry => ?_, fun m hSlot => ?_⟩
      · have hReply := hReply.resolve_right fun hNot => hNot c rfl hEntry
        rw [firstReply?_concat_of_none hReply]
        exact hNone hEntry
      · -- What came first stays first, whatever else comes.
        have hFirst := hSome m hSlot
        cases hBefore : events.any (·.enters n) with
        | true => rw [firstReply?_concat hBefore, hFirst, Option.some_or]
        | false =>
            rw [firstReply?_eq_none hBefore] at hFirst
            cases hFirst

theorem Traced.move {stage : Stage} (h : Traced events n (some c))
    (hMoves : Moves n c e stage) : Traced (events ++ [e]) n (some { c with stage }) := by
  obtain ⟨hEntered, hNone, hSome⟩ := h
  have hFirst : firstReply? n (events ++ [e]) = firstReply? n events :=
    firstReply?_concat_of_none (hMoves.replyTo?_eq_none n)
  refine ⟨?_, fun hEntry => ?_, fun m hSlot => hFirst.trans (hSome m hSlot)⟩
  · have hLater : (events ++ [e]).any (·.enters n) = true := by
      cases hMoves with
      | enter hStage => simp [Event.enters]
      | _ => simp_all
    refine iff_of_true hLater ?_
    cases hMoves <;> simp
  · rw [hFirst]
    simp only [Call.holdsEntry_iff] at hEntry hNone
    cases hMoves with
    | enter hStage =>
        -- Messages that came before this do not count.
        refine firstReply?_eq_none (Bool.eq_false_iff.mpr fun hAny => ?_)
        exact hEntered.mp hAny hStage
    | _ => simp_all

theorem Traced.step (h : Traced events n call) (hTouches : d.Touches n e call call')
    (hEntry : ∀ c ∈ call, n ∈ d.pending ↔ c.HoldsEntry) : Traced (events ++ [e]) n call' := by
  cases hTouches with
  | keep _ hEnters hReply =>
      refine h.keep hEnters (hReply.imp_right fun hMem c hc => ?_)
      rwa [← hEntry c hc]
  | begin method params =>
      have hAny : (events ++ [Event.begin method params]).any (·.enters n) = false := by
        rw [List.any_append, h]
        rfl
      exact ⟨by rw [hAny]; simp, fun _ => firstReply?_eq_none hAny, by simp⟩
  | move hMoves => exact h.move hMoves
  | @fill text m c hReply hMem =>
      obtain ⟨hEntered, hNone, _⟩ := h
      have hHolds := (hEntry c rfl).mp hMem
      have hStage : c.stage ≠ .numbered := by
        simp only [Call.holdsEntry_iff] at hHolds
        rintro hStage
        simp [hStage] at hHolds
      have hAny := hEntered.mpr hStage
      have hBrings : (Event.receive text).replyTo? n = some m :=
        Event.replyTo?_eq_some_iff.mpr ⟨text, rfl, hReply⟩
      refine ⟨by simp [hAny, hStage], ?_, ?_⟩
      · simp [Call.holdsEntry_iff]
      · rintro m' ⟨⟩
        rw [firstReply?_concat hAny, hNone hHolds, hBrings, Option.none_or]
  | @abandon c hMem =>
      obtain ⟨hEntered, _, _⟩ := h
      refine ⟨by simpa [Event.enters] using hEntered, ?_, by simp⟩
      simp [Call.holdsEntry_iff]

theorem traced (h : start.run events = some d) (n : Nat) : Traced events n (d.call? n) := by
  refine sound_start.run_induction (P := fun events d => Traced events n (d.call? n)) rfl ?_ h
  intro events d e d' hSound hTraced hStep
  exact hTraced.step (hSound.touches hStep n) fun c hCall => hSound.holdsEntry_iff hCall

/-! ### How a command ends -/

theorem Touches.ended (h : d.Touches n e (some c) call') (hEnded : c.stage = .ended o) :
    ∃ c', call' = some c' ∧ c'.stage = .ended o := by
  cases h with
  | keep => exact ⟨c, rfl, hEnded⟩
  | move hMoves => cases hMoves <;> simp_all
  | fill | abandon => exact ⟨_, rfl, hEnded⟩

/-- A command that has ended stays as it is. -/
theorem Sound.outcome?_run (h : d.Sound) (hOutcome : d.outcome? n = some o)
    (hRun : d.run events = some d') : d'.outcome? n = some o := by
  refine h.run_induction (P := fun _ d => d.outcome? n = some o) hOutcome ?_ hRun
  intro _ d e d' hSound hOutcome hStep
  obtain ⟨c, hCall, hEnded⟩ := outcome?_eq_some_iff.mp hOutcome
  have hTouches := hSound.touches hStep n
  rw [hCall] at hTouches
  exact outcome?_eq_some_iff.mpr (hTouches.ended hEnded)

/-- A command that was answered found the first message that carries its number. -/
theorem firstReply?_of_answered {m : Json} (h : start.run events = some d)
    (hOutcome : d.outcome? n = some (.answered m)) : firstReply? n events = some m := by
  obtain ⟨c, hCall, hEnded⟩ := outcome?_eq_some_iff.mp hOutcome
  have hSlot := ((sound_start.run h).consistent n c hCall).2 m hEnded
  have hTraced := traced h n
  rw [hCall] at hTraced
  exact hTraced.2.2 m hSlot

theorem number_of_replyOf? {text : String} {m : Json} (h : replyOf? text = some (n, m)) :
    (m.get? "id").bind Json.nat? = some n := by
  simp only [replyOf?, Option.bind_eq_some_iff, Option.map_eq_some_iff] at h
  obtain ⟨_, _, _, hNumber, hPair⟩ := h
  cases hPair
  exact Option.bind_eq_some_iff.mpr hNumber

theorem exists_of_firstReply? {m : Json} (h : firstReply? n events = some m) :
    ∃ text, .receive text ∈ events ∧ replyOf? text = some (n, m) := by
  obtain ⟨e, hMem, hReply⟩ := List.exists_of_findSome?_eq_some h
  obtain ⟨text, rfl, hNumber⟩ := Event.replyTo?_eq_some_iff.mp hReply
  exact ⟨text, (List.dropWhile_sublist _).subset hMem, hNumber⟩

/-- Every way to end other than by an answer is a failure of its own kind. -/
theorem toResult_of_unanswered (h : ∀ m, o ≠ .answered m) (method : String) (secs : Nat) :
    o.toResult method secs = .error (.timeout method secs) ∨
      ∃ detail, o.toResult method secs = .error (.transport detail) := by
  cases o with
  | answered m => exact absurd rfl (h m)
  | timedOut => exact .inl rfl
  | closed => exact .inr ⟨_, rfl⟩
  | unsent => exact .inr ⟨_, rfl⟩

/-! ### A reply in time decides -/

/-- The command found a message in its slot, and it is past the point where it could still miss it; or it
is not (`early`), and then it ends with the message or because it could not be handed on. -/
def Found (early : Prop) (m : Json) (c : Call) : Prop :=
  c.slot = .filled m ∧
    (c.stage = .waiting ∨ c.stage = .ended (.answered m) ∨
      early ∧ (c.stage = .entered ∨ c.stage = .ended .unsent))

theorem Touches.found {early : Prop} {m : Json} (h : d.Touches n e (some c) call')
    (hFound : Found early m c) (hEntry : n ∈ d.pending ↔ c.HoldsEntry) : ∃ c', call' = some c' ∧ Found early m c' := by
  have hGone : n ∉ d.pending := by
    rw [hEntry]
    simp [Call.holdsEntry_iff, hFound.1]
  cases h with
  | keep => exact ⟨c, rfl, hFound⟩
  | move hMoves =>
      refine ⟨_, rfl, ?_⟩
      simp only [Found] at hFound ⊢
      cases hMoves <;> simp_all
  | fill _ hMem | abandon hMem => exact absurd hMem hGone

/-- The first message with the number of a command that looks for it is what the command ends with, unless
the writer stops before the command is handed to it. -/
theorem Sound.outcome?_of_awaits {text : String} {m : Json} (h : d.Sound) (hCall : d.call? n = some c)
    (hAwaits : c.Awaits) (hReply : replyOf? text = some (n, m))
    (hRun : d.run (.receive text :: events) = some d') (hOutcome : d'.outcome? n = some o) :
    o = .answered m ∨ o = .unsent ∧ c.stage = .entered := by
  obtain ⟨d₁, hStep, hRest⟩ := Option.bind_eq_some_iff.mp hRun
  have hBrings : (Event.receive text).replyTo? n = some m :=
    Event.replyTo?_eq_some_iff.mpr ⟨text, rfl, hReply⟩
  have hMem : n ∈ d.pending := (h.holdsEntry_iff hCall).mpr (.inl hAwaits)
  have hFound₁ : ∃ c₁, d₁.call? n = some c₁ ∧ Found (c.stage = .entered) m c₁ := by
    cases happens_of_step hStep with
    | receive =>
        refine ⟨{ c with slot := .filled m }, ?_, rfl, ?_⟩
        · rw [call?_take]
          simp [hBrings, hMem, hCall]
        rcases hAwaits.2 with hStage | hStage
        · exact .inr (.inr ⟨hStage, .inl hStage⟩)
        · exact .inl hStage
  have hFound : ∃ c', d'.call? n = some c' ∧ Found (c.stage = .entered) m c' := by
    refine (h.step hStep).run_induction
      (P := fun _ d => ∃ c', d.call? n = some c' ∧ Found (c.stage = .entered) m c') hFound₁ ?_ hRest
    rintro _ d e d' hSound ⟨c₁, hCall₁, hFound₁⟩ hStep
    have hTouches := hSound.touches hStep n
    rw [hCall₁] at hTouches
    exact hTouches.found hFound₁ (hSound.holdsEntry_iff hCall₁)
  obtain ⟨c', hCall', hFound⟩ := hFound
  obtain ⟨c'', hCall'', hEnded⟩ := outcome?_eq_some_iff.mp hOutcome
  obtain rfl : c' = c'' := Option.some.inj (hCall'.symm.trans hCall'')
  have hCases : o = .answered m ∨ c.stage = .entered ∧ o = .unsent := by
    simpa [hEnded] using hFound.2
  exact hCases.imp_right And.symm

/-! ### Messages for nobody -/

/-- The command looks for no reply and never will. -/
def Deaf (c : Call) : Prop :=
  c.stage = .overdue ∨ ∃ o, c.stage = .ended o

/-- Two states of one command that differ in nothing that still matters to it. -/
def Same (call call' : Option Call) : Prop :=
  call = call' ∨ ∃ c c', call = some c ∧ call' = some c' ∧ Deaf c ∧ c.stage = c'.stage

/-- Two states in which every command is as far, and whatever still matters is the same. -/
structure Alike (d d' : Dispatch) : Prop where
  sound : d.Sound
  sound' : d'.Sound
  nextId : d.nextId = d'.nextId
  outbox : d.outbox = d'.outbox
  reader : d.reader = d'.reader
  writing : d.writing = d'.writing
  same : ∀ n, Same (d.call? n) (d'.call? n)

theorem Same.symm (h : Same call call') : Same call' call := by
  rcases h with rfl | ⟨c, c', rfl, rfl, hDeaf, hStage⟩
  · exact .inl rfl
  · exact .inr ⟨c', c, rfl, rfl, by rwa [Deaf, ← hStage], hStage.symm⟩

theorem Same.stage_eq (h : Same call call') : call.map Call.stage = call'.map Call.stage := by
  rcases h with rfl | ⟨c, c', rfl, rfl, _, hStage⟩
  · rfl
  · exact congrArg some hStage

/-- What happens to a slot only matters to those that still look into it. -/
theorem Same.map (f : Call → Call) (hf : ∀ c, (f c).stage = c.stage) {p p' : Prop}
    [Decidable p] [Decidable p'] (h : Same call call') (hp : call = call' → (p ↔ p')) :
    Same (if p then call.map f else call) (if p' then call'.map f else call') := by
  rcases h with rfl | ⟨c, c', rfl, rfl, hDeaf, hStage⟩
  · left
    simp only [hp rfl]
  · right
    refine ⟨if p then f c else c, if p' then f c' else c', ?_, ?_, ?_, ?_⟩
    · split <;> rfl
    · split <;> rfl
    · split <;> simp_all [Deaf]
    · split <;> split <;> simp [hf, hStage]

namespace Alike

theorem symm (h : Alike d d') : Alike d' d :=
  ⟨h.sound', h.sound, h.nextId.symm, h.outbox.symm, h.reader.symm, h.writing.symm, fun n => (h.same n).symm⟩

theorem call?_eq (h : Alike d d') (hCall : d.call? n = some c) (hHears : ¬ Deaf c) :
    d'.call? n = some c := by
  rcases h.same n with hEq | ⟨c₁, c', hCall₁, _, hDeaf, _⟩
  · exact hEq ▸ hCall
  · obtain rfl : c = c₁ := Option.some.inj (hCall.symm.trans hCall₁)
    exact absurd hDeaf hHears

theorem mem_pending_iff (h : Alike d d') (hEq : d.call? n = d'.call? n) :
    n ∈ d.pending ↔ n ∈ d'.pending := by
  rw [h.sound.mem_pending_iff, h.sound'.mem_pending_iff, hEq]

theorem same_move (h : Alike d d') {id : Nat} {stage : Stage}
    (hMoved : d.call? id = d'.call? id ∨ ∃ o, stage = .ended o) (n : Nat) :
    Same ((d.move id stage).call? n) ((d'.move id stage).call? n) := by
  rw [call?_move, call?_move]
  split
  · next hn =>
      subst hn
      rcases hMoved with hEq | ⟨o, rfl⟩
      · rw [hEq]
        exact .inl rfl
      · rcases h.same n with hEq | ⟨c, c', hCall, hCall', _, _⟩
        · rw [hEq]
          exact .inl rfl
        · rw [hCall, hCall']
          exact .inr ⟨_, _, rfl, rfl, .inr ⟨o, rfl⟩, rfl⟩
  · exact h.same n

theorem same_take (h : Alike d d') (text : String) (n : Nat) :
    Same ((d.take text).call? n) ((d'.take text).call? n) := by
  rw [call?_take, call?_take]
  split
  · next m _ =>
      exact (h.same n).map (fun c => { c with slot := .filled m }) (fun _ => rfl) h.mem_pending_iff
  · exact h.same n

theorem same_abandonAll (h : Alike d d') (n : Nat) :
    Same (d.abandonAll.call? n) (d'.abandonAll.call? n) := by
  rw [call?_abandonAll, call?_abandonAll]
  exact (h.same n).map (fun c => { c with slot := .abandoned }) (fun _ => rfl) h.mem_pending_iff

/-- What can happen in one of two such states can happen in the other, and leads to two such states. -/
theorem step {d₁ : Dispatch} (h : Alike d d') (hStep : d.step e = some d₁) :
    ∃ d₁', d'.step e = some d₁' ∧ Alike d₁ d₁' := by
  -- The event happens in the other state too; what it does to the calls is left to show.
  have hAlike {d₁' : Dispatch} (hHappens : d'.Happens e d₁') (hNext : d₁.nextId = d₁'.nextId)
      (hOutbox : d₁.outbox = d₁'.outbox) (hReader : d₁.reader = d₁'.reader)
      (hWriting : d₁.writing = d₁'.writing) (hSame : ∀ n, Same (d₁.call? n) (d₁'.call? n)) :
      ∃ d₁', d'.step e = some d₁' ∧ Alike d₁ d₁' :=
    ⟨d₁', hHappens.step_eq, h.sound.step hStep, h.sound'.step hHappens.step_eq, hNext, hOutbox, hReader,
      hWriting, hSame⟩
  cases happens_of_step hStep with
  | begin method params =>
      refine hAlike (.begin method params) (congrArg (· + 1) h.nextId) h.outbox h.reader h.writing
        fun n => ?_
      rw [← h.nextId, call?, call?, List.lookup_cons, List.lookup_cons]
      split
      · exact .inl rfl
      · exact h.same n
  | enter hCall hStage =>
      have hCall' := h.call?_eq hCall (by simp [Deaf, hStage])
      exact hAlike (.enter hCall' hStage) h.nextId h.outbox h.reader h.writing
        (h.same_move (.inl (hCall.trans hCall'.symm)))
  | refuse hCall hStage hWriting =>
      have hCall' := h.call?_eq hCall (by simp [Deaf, hStage])
      exact hAlike (.refuse hCall' hStage (h.writing ▸ hWriting)) h.nextId h.outbox h.reader h.writing
        (h.same_move (.inl (hCall.trans hCall'.symm)))
  | @handOn id c hCall hStage hWriting hRoom =>
      have hCall' := h.call?_eq hCall (by simp [Deaf, hStage])
      exact hAlike (.handOn hCall' hStage (h.writing ▸ hWriting) (h.outbox ▸ hRoom)) h.nextId
        (congrArg (· ++ [⟨id, c.method, c.params⟩]) h.outbox) h.reader h.writing
        (h.same_move (.inl (hCall.trans hCall'.symm)))
  | write hOutbox =>
      exact hAlike (.write (h.outbox.symm.trans hOutbox)) h.nextId rfl h.reader h.writing h.same
  | stopWriting hOutbox =>
      exact hAlike (.stopWriting (h.outbox ▸ hOutbox)) h.nextId rfl h.reader rfl h.same
  | receive text hReading =>
      refine hAlike (.receive text (h.reader ▸ hReading)) ?_ ?_ ?_ ?_ (h.same_take text)
      · rw [nextId_take, nextId_take, h.nextId]
      · rw [outbox_take, outbox_take, h.outbox]
      · rw [reader_take, reader_take, h.reader]
      · rw [writing_take, writing_take, h.writing]
  | stopReading hReading =>
      exact hAlike (.stopReading (h.reader ▸ hReading)) h.nextId h.outbox rfl h.writing h.same
  | clear hLeaving =>
      exact hAlike (.clear (h.reader ▸ hLeaving)) h.nextId h.outbox rfl h.writing h.same_abandonAll
  | answer hCall hStage hSlot =>
      have hCall' := h.call?_eq hCall (by simp [Deaf, hStage])
      exact hAlike (.answer hCall' hStage hSlot) h.nextId h.outbox h.reader h.writing
        (h.same_move (.inr ⟨_, rfl⟩))
  | close hCall hStage hSlot =>
      have hCall' := h.call?_eq hCall (by simp [Deaf, hStage])
      exact hAlike (.close hCall' hStage hSlot) h.nextId h.outbox h.reader h.writing
        (h.same_move (.inr ⟨_, rfl⟩))
  | giveUp hCall hStage hSlot =>
      have hCall' := h.call?_eq hCall (by simp [Deaf, hStage])
      exact hAlike (.giveUp hCall' hStage hSlot) h.nextId h.outbox h.reader h.writing
        (h.same_move (.inl (hCall.trans hCall'.symm)))
  | @withdraw id c hCall hStage =>
      have hStages := (h.same id).stage_eq
      rw [hCall, Option.map_some, eq_comm, Option.map_eq_some_iff] at hStages
      obtain ⟨c', hCall', hStage'⟩ := hStages
      exact hAlike (.withdraw hCall' (hStage'.trans hStage)) h.nextId h.outbox h.reader h.writing
        (h.same_move (.inr ⟨_, rfl⟩))

theorem run {d₁ : Dispatch} (h : Alike d d') (hRun : d.run events = some d₁) :
    ∃ d₁', d'.run events = some d₁' ∧ Alike d₁ d₁' := by
  induction events generalizing d d' with
  | nil =>
      cases hRun
      exact ⟨d', rfl, h⟩
  | cons e rest ih =>
      obtain ⟨d₂, hStep, hRest⟩ := Option.bind_eq_some_iff.mp hRun
      obtain ⟨d₂', hStep', hAlike⟩ := h.step hStep
      obtain ⟨d₁', hRest', hEnd⟩ := ih hAlike hRest
      exact ⟨d₁', Option.bind_eq_some_iff.mpr ⟨d₂', hStep', hRest'⟩, hEnd⟩

theorem outcome?_eq (h : Alike d d') : d.outcome? = d'.outcome? := by
  funext n
  ext o
  rw [outcome?_eq_some_iff, outcome?_eq_some_iff]
  have hStages := congrArg (· = some (Stage.ended o)) (h.same n).stage_eq
  simpa [Option.map_eq_some_iff] using hStages

/-- The same can happen from now on, and every command ends the same way. -/
theorem map_outcome?_run (h : Alike d d') : (d.run events).map outcome? = (d'.run events).map outcome? := by
  ext outcomes
  simp only [Option.map_eq_some_iff]
  refine ⟨?_, ?_⟩
  · rintro ⟨d₁, hRun, rfl⟩
    obtain ⟨d₁', hRun', hAlike⟩ := h.run hRun
    exact ⟨d₁', hRun', hAlike.outcome?_eq.symm⟩
  · rintro ⟨d₁', hRun', rfl⟩
    obtain ⟨d₁, hRun, hAlike⟩ := h.symm.run hRun'
    exact ⟨d₁, hRun, hAlike.outcome?_eq.symm⟩

end Alike

/-- A message whose number belongs to no command that looks for a reply leaves everything alike. -/
theorem Sound.alike_take {text : String} (h : d.Sound)
    (hNobody : ∀ n m c, replyOf? text = some (n, m) → d.call? n = some c → ¬ c.Awaits) :
    Alike (d.take text) d where
  sound := h.take text
  sound' := h
  nextId := nextId_take text
  outbox := outbox_take text
  reader := reader_take text
  writing := writing_take text
  same n := by
    rw [call?_take]
    split
    · next m hBrings =>
        obtain ⟨_, hText, hReply⟩ := Event.replyTo?_eq_some_iff.mp hBrings
        cases hText
        split
        · next hMem =>
            obtain ⟨c, hCall, hEntry⟩ := (h.mem_pending_iff n).mp hMem
            have hOver := (hEntry.resolve_left (hNobody n m c hReply hCall)).2
            rw [hCall]
            exact .inr ⟨_, c, rfl, rfl, hOver.imp_right fun hStage => ⟨_, hStage⟩, rfl⟩
        · exact .inl rfl
    · exact .inl rfl

/-! ### Every command can end -/

/-- The command can come to its end by steps of its own, while the writer goes on writing. -/
def CanEnd (d : Dispatch) (n : Nat) : Prop :=
  ∃ events d', (∀ e ∈ events, e.isOf n ∨ e = .write) ∧ d.run events = some d' ∧ (d'.outcome? n).isSome

theorem CanEnd.of_step (hOwn : e.isOf n ∨ e = .write) (hStep : d.step e = some d') (h : d'.CanEnd n) :
    d.CanEnd n := by
  obtain ⟨events, d₁, hEvents, hRun, hEnded⟩ := h
  refine ⟨e :: events, d₁, ?_, Option.bind_eq_some_iff.mpr ⟨d', hStep, hRun⟩, hEnded⟩
  simpa using ⟨hOwn, hEvents⟩

theorem CanEnd.of_happens (hHappens : d.Happens e d') (hOwn : e.isOf n = true) (h : d'.CanEnd n) :
    d.CanEnd n :=
  .of_step (.inl hOwn) hHappens.step_eq h

theorem canEnd_of_ended (hCall : d.call? n = some c) (hStage : c.stage = .ended o) : d.CanEnd n := by
  have hOutcome : d.outcome? n = some o := (outcome?_of_call? hCall).mpr hStage
  exact ⟨[], d, nofun, rfl, by rw [hOutcome]; rfl⟩

theorem canEnd_of_overdue (hCall : d.call? n = some c) (hStage : c.stage = .overdue) : d.CanEnd n := by
  refine .of_happens (.withdraw hCall hStage) (beq_self_eq_true n) ?_
  exact canEnd_of_ended (c := { c with stage := .ended .timedOut }) (call?_move_self hCall) rfl

theorem canEnd_of_waiting (hCall : d.call? n = some c) (hStage : c.stage = .waiting) : d.CanEnd n := by
  cases hSlot : c.slot with
  | empty =>
      refine .of_happens (.giveUp hCall hStage hSlot) (beq_self_eq_true n) ?_
      exact canEnd_of_overdue (call?_move_self hCall) rfl
  | filled m =>
      refine .of_happens (.answer hCall hStage hSlot) (beq_self_eq_true n) ?_
      exact canEnd_of_ended (call?_move_self hCall) rfl
  | abandoned =>
      refine .of_happens (.close hCall hStage hSlot) (beq_self_eq_true n) ?_
      exact canEnd_of_ended (call?_move_self hCall) rfl

theorem canEnd_of_entered (hCall : d.call? n = some c) (hStage : c.stage = .entered) : d.CanEnd n := by
  cases hWriting : d.writing with
  | false =>
      refine .of_happens (.refuse hCall hStage hWriting) (beq_self_eq_true n) ?_
      exact canEnd_of_ended (call?_move_self hCall) rfl
  | true =>
      -- The writer makes room by writing what it was handed before.
      induction hOutbox : d.outbox generalizing d with
      | nil =>
          have hRoom : d.outbox.length < capacity := by simp [hOutbox, capacity]
          refine .of_happens (.handOn hCall hStage hWriting hRoom) (beq_self_eq_true n) ?_
          exact canEnd_of_waiting (c := { c with stage := .waiting }) (call?_move_self hCall) rfl
      | cons r rest ih =>
          refine .of_step (.inr rfl) (Happens.write hOutbox).step_eq ?_
          exact ih (d := { d with outbox := rest }) hCall hWriting rfl

theorem canEnd_of_numbered (hCall : d.call? n = some c) (hStage : c.stage = .numbered) : d.CanEnd n := by
  refine .of_happens (.enter hCall hStage) (beq_self_eq_true n) ?_
  exact canEnd_of_entered (c := { c with stage := .entered }) (call?_move_self hCall) rfl

theorem canEnd (hMem : n ∈ d.numbers) : d.CanEnd n := by
  obtain ⟨c, hCall⟩ := mem_numbers_iff.mp hMem
  cases hStage : c.stage with
  | numbered => exact canEnd_of_numbered hCall hStage
  | entered => exact canEnd_of_entered hCall hStage
  | waiting => exact canEnd_of_waiting hCall hStage
  | overdue => exact canEnd_of_overdue hCall hStage
  | ended o => exact canEnd_of_ended hCall hStage

/-! ### Delivery -/

/-- What is true of the replies in a state to which `events` led. -/
structure Delivers (events : List Event) (d : Dispatch) : Prop where
  /-- No two commands have the same number. -/
  nodup_numbers : d.numbers.Nodup
  /-- Every command can come to its end, whatever happened so far. -/
  canEnd : ∀ n ∈ d.numbers, d.CanEnd n
  /-- How a command has ended does not change any more. -/
  outcome?_run : ∀ n o, d.outcome? n = some o →
    ∀ rest d', d.run rest = some d' → d'.outcome? n = some o
  /-- A command ends with the first message after its entry that carries its number, or because its time
  is up, or because of the connection. -/
  outcome?_cases : ∀ n o, d.outcome? n = some o → ∀ method secs,
    (∃ m, o = .answered m ∧ firstReply? n events = some m) ∨
      o.toResult method secs = .error (.timeout method secs) ∨
      ∃ detail, o.toResult method secs = .error (.transport detail)
  /-- A message answers no command but the one whose number it carries, so it answers no two. -/
  answered : ∀ n m, d.outcome? n = some (.answered m) →
    (∃ text, .receive text ∈ events ∧ replyOf? text = some (n, m)) ∧
      ∀ k, d.outcome? k = some (.answered m) → k = n
  /-- A message does nothing to a command whose number it does not carry. -/
  call?_take : ∀ text n, (∀ m, replyOf? text ≠ some (n, m)) → (d.take text).call? n = d.call? n
  /-- A command that looks for its reply when the reply comes ends with it, if it is or will be handed to
  the writer. -/
  outcome?_of_awaits : ∀ text n m c, replyOf? text = some (n, m) → d.call? n = some c → c.Awaits →
    ∀ rest d' o, d.run (.receive text :: rest) = some d' → d'.outcome? n = some o →
      o = .answered m ∨ o = .unsent ∧ c.stage = .entered
  /-- A message that carries the number of no command that looks for its reply makes no difference to
  what can happen from now on, nor to how any command ends. -/
  map_outcome?_run : d.reader = .reading → ∀ text,
    (∀ n m c, replyOf? text = some (n, m) → d.call? n = some c → ¬ c.Awaits) →
      ∀ rest, (d.run (.receive text :: rest)).map outcome? = (d.run rest).map outcome?

/-- Replies reach the commands that they answer and no others, in whatever order things happen. -/
theorem replies_reach_their_commands (h : start.run events = some d) : d.Delivers events where
  nodup_numbers := (sound_start.run h).nodup_numbers
  canEnd n := canEnd
  outcome?_run n o hOutcome rest d' := (sound_start.run h).outcome?_run hOutcome
  outcome?_cases n o hOutcome method secs := by
    by_cases hAnswered : ∃ m, o = .answered m
    · obtain ⟨m, rfl⟩ := hAnswered
      exact .inl ⟨m, rfl, firstReply?_of_answered h hOutcome⟩
    · exact .inr (toResult_of_unanswered (not_exists.mp hAnswered) method secs)
  answered n m hOutcome := by
    obtain ⟨text, hMem, hReply⟩ := exists_of_firstReply? (firstReply?_of_answered h hOutcome)
    refine ⟨⟨text, hMem, hReply⟩, fun k hOther => ?_⟩
    obtain ⟨_, _, hReply'⟩ := exists_of_firstReply? (firstReply?_of_answered h hOther)
    exact Option.some.inj ((number_of_replyOf? hReply').symm.trans (number_of_replyOf? hReply))
  call?_take text n hOther := by
    have hNone : (Event.receive text).replyTo? n = none := by
      rw [Option.eq_none_iff_forall_ne_some]
      intro m hBrings
      obtain ⟨_, hText, hReply⟩ := Event.replyTo?_eq_some_iff.mp hBrings
      cases hText
      exact hOther m hReply
    rw [Dispatch.call?_take, hNone]
  outcome?_of_awaits text n m c hReply hCall hAwaits rest d' o :=
    (sound_start.run h).outcome?_of_awaits hCall hAwaits hReply
  map_outcome?_run hReading text hNobody rest := by
    have hStep : d.step (.receive text) = some (d.take text) := (Happens.receive text hReading).step_eq
    rw [run, hStep]
    exact ((sound_start.run h).alike_take hNobody).map_outcome?_run

/-- Two commands on their way at once. The number of the first comes before it is given out and after
its time was up, the reply to the second comes in between, and comes twice. -/
def crossing : List Event :=
  [.receive "\x7b\"id\":1\x7d", .begin "DOM.enable" .null, .begin "Page.enable" .null, .enter 2, .enter 1,
    .handOn 2, .receive "Page.enabled", .receive "\x7b\"id\":2,\"result\":7\x7d", .handOn 1,
    .receive "\x7b\"id\":2,\"result\":8\x7d", .write, .giveUp 1, .wake 2, .withdraw 1,
    .receive "\x7b\"id\":1,\"result\":9\x7d"]

theorem replies_reach_their_commands_crossing :
    ∃ d, start.run crossing = some d ∧ (d.outcome? 1).any (· matches .timedOut) ∧
      ((d.outcome? 2).bind fun o => (o.toResult "Page.enable" 1).toOption.map Json.compact) = some "7" ∧
      d.Delivers crossing := by
  have hRuns : (start.run crossing).isSome := by decide +kernel
  have hFirst : (start.run crossing).all fun d => (d.outcome? 1).any (· matches .timedOut) := by
    decide +kernel
  have hSecond : ((start.run crossing).bind fun d => (d.outcome? 2).bind fun o =>
      (o.toResult "Page.enable" 1).toOption.map Json.compact) = some "7" := by
    decide +kernel
  obtain ⟨d, hRun⟩ := Option.isSome_iff_exists.mp hRuns
  rw [hRun] at hFirst hSecond
  exact ⟨d, hRun, hFirst, hSecond, replies_reach_their_commands hRun⟩

end Dispatch

end PageLogic.DevTools
