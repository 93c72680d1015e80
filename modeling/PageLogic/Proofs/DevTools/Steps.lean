import PageLogic.DevTools.Dispatch
import Mathlib.Data.List.Nodup
import Mathlib.Data.List.Induction
/-!
The steps of a client, one by one, and what every run of them keeps. `Dispatch.Happens` lists what each
event does and when it can happen; `Dispatch.Sound` says which numbers are taken, and that the table holds
the entries of exactly those commands that entered themselves and had neither a reply nor a reason to take
the entry back.
-/
namespace PageLogic.DevTools

/-- The command looks for a reply that has not come. -/
def Call.Awaits (c : Call) : Prop :=
  c.slot = .empty ∧ (c.stage = .entered ∨ c.stage = .waiting)

/-- The command entered itself, nothing came for it, and it did not take its entry back: it still waits,
or its time has just run out, or it ended because it could not be handed to the writer. -/
def Call.HoldsEntry (c : Call) : Prop :=
  c.Awaits ∨ c.slot = .empty ∧ (c.stage = .overdue ∨ c.stage = .ended .unsent)

theorem Call.holdsEntry_iff {c : Call} : c.HoldsEntry ↔ c.slot = .empty ∧
    (c.stage = .entered ∨ c.stage = .waiting ∨ c.stage = .overdue ∨ c.stage = .ended .unsent) := by
  unfold HoldsEntry Awaits
  tauto

/-- Nothing came for a command before it entered itself, and a command that was answered found the answer
in its slot. -/
def Call.Consistent (c : Call) : Prop :=
  (c.stage = .numbered → c.slot = .empty) ∧ ∀ m, c.stage = .ended (.answered m) → c.slot = .filled m

/-- In the event the command numbered `n` enters itself into the table. -/
def Event.enters (n : Nat) : Event → Bool
  | .enter id => id == n
  | _ => false

/-- The message with the number `n` that the event brings. -/
def Event.replyTo? (n : Nat) : Event → Option Json
  | .receive text => (replyOf? text).bind fun (id, message) => if id = n then some message else none
  | _ => none

theorem Event.replyTo?_eq_some_iff {n : Nat} {e : Event} {m : Json} :
    e.replyTo? n = some m ↔ ∃ text, e = .receive text ∧ replyOf? text = some (n, m) := by
  cases e with
  | receive text =>
      cases hReply : replyOf? text with
      | none => simp [replyTo?, hReply]
      | some reply =>
          obtain ⟨id, message⟩ := reply
          simp [replyTo?, hReply]
  | _ => simp [replyTo?]

namespace Dispatch

variable {d d' : Dispatch} {e : Event} {id n : Nat} {c : Call} {stage : Stage} {o : Outcome}
  {events : List Event}

/-! ### Looking at calls -/

theorem lookup_map_snd (f : Nat → Call → Call) (calls : List (Nat × Call)) (n : Nat) :
    (calls.map fun (id, c) => (id, f id c)).lookup n = (calls.lookup n).map (f n) := by
  induction calls with
  | nil => rfl
  | cons call rest ih =>
      obtain ⟨id, c⟩ := call
      rw [List.map_cons, List.lookup_cons, List.lookup_cons, ih]
      by_cases h : n = id
      · subst h
        simp
      · simp [beq_eq_false_iff_ne.mpr h]

theorem call?_change (touched : Nat → Bool) (f : Call → Call) (n : Nat) :
    (d.change touched f).call? n =
      if touched n then (d.call? n).map f else d.call? n := by
  rw [call?, change, lookup_map_snd fun id c => if touched id then f c else c]
  by_cases h : touched n
  · simp [h, call?]
  · simp [h, call?]

theorem call?_move (id : Nat) (stage : Stage) (n : Nat) :
    (d.move id stage).call? n =
      if n = id then (d.call? n).map fun c => { c with stage } else d.call? n := by
  rw [move, call?_change]
  by_cases h : n = id <;> simp [h]

theorem call?_move_self (h : d.call? id = some c) :
    (d.move id stage).call? id = some { c with stage } := by
  rw [call?_move, if_pos rfl, h, Option.map_some]

theorem call?_move_of_ne (h : n ≠ id) : (d.move id stage).call? n = d.call? n := by
  rw [call?_move, if_neg h]

theorem call?_fill (id : Nat) (m : Json) (n : Nat) :
    (d.fill id m).call? n =
      if n = id then (d.call? n).map fun c => { c with slot := .filled m } else d.call? n := by
  rw [fill, call?_change]
  by_cases h : n = id <;> simp [h]

theorem call?_abandonAll (n : Nat) :
    d.abandonAll.call? n =
      if n ∈ d.pending then (d.call? n).map fun c => { c with slot := .abandoned } else d.call? n := by
  have hChange := call?_change (d := d) d.pending.contains (fun c => { c with slot := .abandoned }) n
  refine hChange.trans ?_
  by_cases h : n ∈ d.pending <;> simp [h]

theorem mem_pending_removeEntry : n ∈ (d.removeEntry id).pending ↔ n ∈ d.pending ∧ n ≠ id := by
  simp [removeEntry]

/-- A message that carries the number of an entry. -/
theorem take_of_mem {text : String} {m : Json} (hReply : replyOf? text = some (id, m))
    (hMem : id ∈ d.pending) : d.take text = (d.fill id m).removeEntry id := by
  simp [take, hReply, hMem]

/-- All other messages change nothing. -/
theorem take_of_forall {text : String} (h : ∀ id m, replyOf? text = some (id, m) → id ∉ d.pending) :
    d.take text = d := by
  unfold take
  split
  · next id m hReply => simp [h id m hReply]
  · rfl

/-- A message does something to the command whose entry has its number, and to no other. -/
theorem call?_take (text : String) (n : Nat) :
    (d.take text).call? n =
      match (Event.receive text).replyTo? n with
      | some m =>
        if n ∈ d.pending then (d.call? n).map fun c => { c with slot := .filled m } else d.call? n
      | none => d.call? n := by
  cases hReply : replyOf? text with
  | none => simp [take, Event.replyTo?, hReply]
  | some reply =>
      obtain ⟨id, m⟩ := reply
      by_cases hMem : id ∈ d.pending
      · rw [take_of_mem hReply hMem]
        refine (call?_fill id m n).trans ?_
        by_cases hn : n = id
        · subst hn
          simp [Event.replyTo?, hReply, hMem]
        · simp [Event.replyTo?, hReply, hn, Ne.symm hn]
      · have hTake : d.take text = d := by simp [take, hReply, hMem]
        rw [hTake]
        by_cases hn : id = n
        · subst hn
          simp [Event.replyTo?, hReply, hMem]
        · simp [Event.replyTo?, hReply, hn]

/-- A message concerns the calls and the table only. -/
theorem exists_take_eq (d : Dispatch) (text : String) :
    ∃ calls pending, d.take text = { d with calls, pending } := by
  unfold take
  split
  · split
    · exact ⟨_, _, rfl⟩
    · exact ⟨_, _, rfl⟩
  · exact ⟨_, _, rfl⟩

theorem nextId_take (text : String) : (d.take text).nextId = d.nextId := by
  obtain ⟨_, _, hTake⟩ := exists_take_eq d text
  rw [hTake]

theorem outbox_take (text : String) : (d.take text).outbox = d.outbox := by
  obtain ⟨_, _, hTake⟩ := exists_take_eq d text
  rw [hTake]

theorem reader_take (text : String) : (d.take text).reader = d.reader := by
  obtain ⟨_, _, hTake⟩ := exists_take_eq d text
  rw [hTake]

theorem writing_take (text : String) : (d.take text).writing = d.writing := by
  obtain ⟨_, _, hTake⟩ := exists_take_eq d text
  rw [hTake]

/-- The numbers that commands have taken, the newest first. -/
def numbers (d : Dispatch) : List Nat :=
  d.calls.map Prod.fst

theorem numbers_change (touched : Nat → Bool) (f : Call → Call) :
    (d.change touched f).numbers = d.numbers := by
  rw [numbers, change, List.map_map]
  rfl

@[simp] theorem numbers_move : (d.move id stage).numbers = d.numbers :=
  numbers_change _ _

@[simp] theorem numbers_fill (id : Nat) (m : Json) : (d.fill id m).numbers = d.numbers :=
  numbers_change _ _

@[simp] theorem numbers_removeEntry : (d.removeEntry id).numbers = d.numbers :=
  rfl

@[simp] theorem numbers_abandonAll : d.abandonAll.numbers = d.numbers :=
  numbers_change d.pending.contains fun c => { c with slot := .abandoned }

theorem mem_numbers_iff : n ∈ d.numbers ↔ ∃ c, d.call? n = some c := by
  rw [numbers, call?]
  induction d.calls with
  | nil => simp
  | cons call rest ih =>
      obtain ⟨id, c⟩ := call
      by_cases h : n = id
      · subst h
        simp
      · simp [List.lookup_cons, beq_eq_false_iff_ne.mpr h, ← ih, h]

theorem outcome?_eq_some_iff : d.outcome? n = some o ↔ ∃ c, d.call? n = some c ∧ c.stage = .ended o := by
  unfold outcome?
  split
  · next hCall => simp [hCall]
  · next hNot =>
      refine ⟨nofun, ?_⟩
      rintro ⟨⟨method, params, stage, slot⟩, hCall, rfl⟩
      exact absurd hCall (hNot method params o slot)

theorem outcome?_of_call? (hCall : d.call? n = some c) : d.outcome? n = some o ↔ c.stage = .ended o := by
  rw [outcome?_eq_some_iff, hCall]
  simp

/-! ### The steps -/

/-- What each event does, and when it can happen. -/
inductive Happens (d : Dispatch) : Event → Dispatch → Prop where
  | begin (method : String) (params : Json) :
      Happens d (.begin method params) { d with
        nextId := d.nextId + 1
        calls := (d.nextId, ⟨method, params, .numbered, .empty⟩) :: d.calls }
  | enter {id : Nat} {c : Call} (hCall : d.call? id = some c) (hStage : c.stage = .numbered) :
      Happens d (.enter id) { d.move id .entered with pending := id :: d.pending }
  | refuse {id : Nat} {c : Call} (hCall : d.call? id = some c) (hStage : c.stage = .entered)
      (hWriting : d.writing = false) :
      Happens d (.handOn id) (d.move id (.ended .unsent))
  | handOn {id : Nat} {c : Call} (hCall : d.call? id = some c) (hStage : c.stage = .entered)
      (hWriting : d.writing = true) (hRoom : d.outbox.length < capacity) :
      Happens d (.handOn id)
        { d.move id .waiting with outbox := d.outbox ++ [⟨id, c.method, c.params⟩] }
  | write {r : Request} {rest : List Request} (hOutbox : d.outbox = r :: rest) :
      Happens d .write { d with outbox := rest }
  | stopWriting (hOutbox : d.outbox ≠ []) :
      Happens d .stopWriting { d with outbox := [], writing := false }
  | receive (text : String) (hReading : d.reader = .reading) : Happens d (.receive text) (d.take text)
  | stopReading (hReading : d.reader = .reading) : Happens d .stopReading { d with reader := .leaving }
  | clear (hLeaving : d.reader = .leaving) :
      Happens d .clear { d.abandonAll with reader := .stopped }
  | answer {id : Nat} {c : Call} {m : Json} (hCall : d.call? id = some c) (hStage : c.stage = .waiting)
      (hSlot : c.slot = .filled m) : Happens d (.wake id) (d.move id (.ended (.answered m)))
  | close {id : Nat} {c : Call} (hCall : d.call? id = some c) (hStage : c.stage = .waiting)
      (hSlot : c.slot = .abandoned) :
      Happens d (.wake id) (d.move id (.ended .closed))
  | giveUp {id : Nat} {c : Call} (hCall : d.call? id = some c) (hStage : c.stage = .waiting)
      (hSlot : c.slot = .empty) :
      Happens d (.giveUp id) (d.move id .overdue)
  | withdraw {id : Nat} {c : Call} (hCall : d.call? id = some c) (hStage : c.stage = .overdue) :
      Happens d (.withdraw id) ((d.move id (.ended .timedOut)).removeEntry id)

theorem happens_of_step (h : d.step e = some d') : d.Happens e d' := by
  cases e with
  | begin method params =>
      cases h
      exact .begin method params
  | enter id =>
      simp only [step] at h
      split at h
      · next hCall =>
          cases h
          exact .enter hCall rfl
      · cases h
  | handOn id =>
      simp only [step] at h
      split at h
      · next hCall =>
          split at h
          · next hWriting =>
              cases h
              exact .refuse hCall rfl (by simpa using hWriting)
          · next hWriting =>
              split at h
              · next hRoom =>
                  cases h
                  exact .handOn hCall rfl (by simpa using hWriting) hRoom
              · cases h
      · cases h
  | write =>
      simp only [step] at h
      split at h
      · next hOutbox =>
          cases h
          exact .write hOutbox
      · cases h
  | stopWriting =>
      simp only [step] at h
      split at h
      · cases h
      · next hOutbox =>
          cases h
          exact .stopWriting (by simpa using hOutbox)
  | receive text =>
      simp only [step] at h
      split at h
      · next hReading =>
          cases h
          exact .receive text hReading
      · cases h
  | stopReading =>
      simp only [step] at h
      split at h
      · next hReading =>
          cases h
          exact .stopReading hReading
      · cases h
  | clear =>
      simp only [step] at h
      split at h
      · next hLeaving =>
          cases h
          exact .clear hLeaving
      · cases h
  | wake id =>
      simp only [step] at h
      split at h
      · next hCall =>
          cases h
          exact .answer hCall rfl rfl
      · next hCall =>
          cases h
          exact .close hCall rfl rfl
      · cases h
  | giveUp id =>
      simp only [step] at h
      split at h
      · next hCall =>
          cases h
          exact .giveUp hCall rfl rfl
      · cases h
  | withdraw id =>
      simp only [step] at h
      split at h
      · next hCall =>
          cases h
          exact .withdraw hCall rfl
      · cases h

theorem Happens.step_eq (h : d.Happens e d') : d.step e = some d' := by
  cases h with
  | begin | write | stopWriting | receive | stopReading | clear => simp_all [step]
  | @enter id c hCall hStage | @refuse id c hCall hStage | @handOn id c hCall hStage
  | @answer id c m hCall hStage | @close id c hCall hStage | @giveUp id c hCall hStage
  | @withdraw id c hCall hStage =>
      obtain ⟨method, params, stage, slot⟩ := c
      simp_all [step]

/-! ### What every run keeps -/

/-- Every command has a number of its own, below the next one, and the table holds the entries of those
commands that entered themselves, found nothing and did not take their entries back. -/
structure Sound (d : Dispatch) : Prop where
  lt_nextId : ∀ n ∈ d.numbers, n < d.nextId
  nodup_numbers : d.numbers.Nodup
  nodup_pending : d.pending.Nodup
  mem_pending_iff : ∀ n, n ∈ d.pending ↔ ∃ c, d.call? n = some c ∧ c.HoldsEntry
  consistent : ∀ n c, d.call? n = some c → c.Consistent

theorem sound_start : start.Sound where
  lt_nextId := nofun
  nodup_numbers := .nil
  nodup_pending := .nil
  mem_pending_iff _ := ⟨nofun, nofun⟩
  consistent _ _ := nofun

namespace Sound

theorem holdsEntry_iff (h : d.Sound) (hCall : d.call? n = some c) : n ∈ d.pending ↔ c.HoldsEntry := by
  rw [h.mem_pending_iff, hCall]
  simp

theorem not_mem_pending_nextId (h : d.Sound) : d.nextId ∉ d.pending := by
  intro hMem
  obtain ⟨c, hCall, _⟩ := (h.mem_pending_iff d.nextId).mp hMem
  exact Nat.lt_irrefl _ (h.lt_nextId _ (mem_numbers_iff.mpr ⟨c, hCall⟩))

theorem call?_nextId (h : d.Sound) : d.call? d.nextId = none := by
  cases hCall : d.call? d.nextId with
  | none => rfl
  | some c => exact absurd (h.lt_nextId _ (mem_numbers_iff.mpr ⟨c, hCall⟩)) (Nat.lt_irrefl _)

/-- One call may change, and its entry with it. -/
theorem update (h : d.Sound) (hNext : d'.nextId = d.nextId) (hNumbers : d'.numbers = d.numbers)
    (hCalls : ∀ n, n ≠ id → d'.call? n = d.call? n)
    (hPending : ∀ n, n ≠ id → (n ∈ d'.pending ↔ n ∈ d.pending)) (hNodup : d'.pending.Nodup)
    (hCall : d'.call? id = some c) (hConsistent : c.Consistent)
    (hEntry : id ∈ d'.pending ↔ c.HoldsEntry) : d'.Sound where
  lt_nextId := by
    rw [hNumbers, hNext]
    exact h.lt_nextId
  nodup_numbers := hNumbers ▸ h.nodup_numbers
  nodup_pending := hNodup
  mem_pending_iff n := by
    by_cases hn : n = id
    · subst hn
      simp [hCall, hEntry]
    · rw [hPending n hn, h.mem_pending_iff, hCalls n hn]
  consistent n c' hCall' := by
    by_cases hn : n = id
    · subst hn
      rw [hCall] at hCall'
      cases hCall'
      exact hConsistent
    · exact h.consistent n c' (hCalls n hn ▸ hCall')

/-- A command can be moved on without regard to the table where its entry is not concerned. -/
theorem move (h : d.Sound) (hCall : d.call? id = some c)
    (hConsistent : Call.Consistent { c with stage })
    (hEntry : c.HoldsEntry ↔ Call.HoldsEntry { c with stage }) : (d.move id stage).Sound :=
  h.update rfl numbers_move (fun _ => call?_move_of_ne) (fun _ _ => .rfl) h.nodup_pending
    (call?_move_self hCall) hConsistent ((h.holdsEntry_iff hCall).trans hEntry)

theorem congr (h : d.Sound) (hNext : d'.nextId = d.nextId) (hCalls : d'.calls = d.calls)
    (hPending : d'.pending = d.pending) : d'.Sound := by
  obtain ⟨_, _, _, _, _, _⟩ := d'
  subst hNext hCalls hPending
  exact ⟨h.lt_nextId, h.nodup_numbers, h.nodup_pending, h.mem_pending_iff, h.consistent⟩

theorem begin (h : d.Sound) (method : String) (params : Json) :
    Sound { d with
      nextId := d.nextId + 1
      calls := (d.nextId, ⟨method, params, .numbered, .empty⟩) :: d.calls } where
  lt_nextId n hn := by
    rcases List.mem_cons.mp hn with rfl | hn
    · exact Nat.lt_succ_self _
    · exact Nat.lt_succ_of_lt (h.lt_nextId n hn)
  nodup_numbers := List.nodup_cons.mpr ⟨fun hMem => Nat.lt_irrefl _ (h.lt_nextId _ hMem), h.nodup_numbers⟩
  nodup_pending := h.nodup_pending
  mem_pending_iff n := by
    by_cases hn : n = d.nextId
    · subst hn
      simp [call?, h.not_mem_pending_nextId, Call.holdsEntry_iff]
    · refine (h.mem_pending_iff n).trans ?_
      rw [call?, call?, List.lookup_cons, beq_eq_false_iff_ne.mpr hn]
  consistent n c hCall := by
    by_cases hn : n = d.nextId
    · subst hn
      obtain rfl : ⟨method, params, .numbered, .empty⟩ = c := by simpa [call?] using hCall
      exact ⟨fun _ => rfl, nofun⟩
    · refine h.consistent n c ?_
      rwa [call?, List.lookup_cons, beq_eq_false_iff_ne.mpr hn] at hCall

theorem take (h : d.Sound) (text : String) : (d.take text).Sound := by
  by_cases hReply : ∃ id m, replyOf? text = some (id, m) ∧ id ∈ d.pending
  · obtain ⟨id, m, hReply, hMem⟩ := hReply
    obtain ⟨c, hCall, hEntry⟩ := (h.mem_pending_iff id).mp hMem
    rw [take_of_mem hReply hMem]
    refine h.update (c := { c with slot := .filled m }) rfl (by simp) (fun n (hn : n ≠ id) => ?_)
      (fun n hn => ?_) (h.nodup_pending.filter _) ?_ ?_ ?_
    · exact (call?_fill id m n).trans (if_neg hn)
    · exact mem_pending_removeEntry.trans (and_iff_left hn)
    · exact (call?_fill id m id).trans (by simp [hCall])
    · simp only [Call.holdsEntry_iff] at hEntry
      refine ⟨fun hStage => ?_, fun m' hStage => ?_⟩ <;> simp_all
    · simp [mem_pending_removeEntry, Call.holdsEntry_iff]
  · rw [take_of_forall fun id m hId hMem => hReply ⟨id, m, hId, hMem⟩]
    exact h

theorem abandonAll (h : d.Sound) : d.abandonAll.Sound where
  lt_nextId n hn := h.lt_nextId n (numbers_abandonAll ▸ hn)
  nodup_numbers := numbers_abandonAll.symm ▸ h.nodup_numbers
  nodup_pending := .nil
  mem_pending_iff n := by
    refine ⟨nofun, ?_⟩
    rintro ⟨c, hCall, hEntry⟩
    rw [call?_abandonAll] at hCall
    split at hCall
    · obtain ⟨c', _, rfl⟩ := Option.map_eq_some_iff.mp hCall
      simp [Call.holdsEntry_iff] at hEntry
    · next hMem => exact absurd ((h.holdsEntry_iff hCall).mpr hEntry) hMem
  consistent n c hCall := by
    rw [call?_abandonAll] at hCall
    split at hCall
    · next hMem =>
        obtain ⟨c', hCall', rfl⟩ := Option.map_eq_some_iff.mp hCall
        have hEntry := (h.holdsEntry_iff hCall').mp hMem
        simp only [Call.holdsEntry_iff] at hEntry
        refine ⟨fun hStage => ?_, fun m' hStage => ?_⟩ <;> simp_all
    · exact h.consistent n c hCall

/-- Every event keeps this. -/
theorem step (h : d.Sound) (hStep : d.step e = some d') : d'.Sound := by
  cases happens_of_step hStep with
  | begin method params => exact h.begin method params
  | @enter id c hCall hStage =>
      have hEmpty := (h.consistent id c hCall).1 hStage
      have hNew : id ∉ d.pending := by
        rw [h.holdsEntry_iff hCall]
        simp [Call.holdsEntry_iff, hStage]
      refine h.update (c := { c with stage := .entered }) rfl numbers_move
        (fun _ => call?_move_of_ne) (fun n hn => ?_) (List.nodup_cons.mpr ⟨hNew, h.nodup_pending⟩)
        (call?_move_self hCall) ⟨nofun, nofun⟩ ?_
      · exact List.mem_cons.trans (or_iff_right hn)
      · simp [Call.holdsEntry_iff, hEmpty]
  | refuse hCall hStage _ =>
      exact h.move hCall ⟨nofun, nofun⟩ (by simp [Call.holdsEntry_iff, hStage])
  | handOn hCall hStage _ _ =>
      have hMoved : (d.move _ .waiting).Sound :=
        h.move hCall ⟨nofun, nofun⟩ (by simp [Call.holdsEntry_iff, hStage])
      exact hMoved.congr rfl rfl rfl
  | write _ => exact h.congr rfl rfl rfl
  | stopWriting _ => exact h.congr rfl rfl rfl
  | receive text _ => exact h.take text
  | stopReading _ => exact h.congr rfl rfl rfl
  | clear _ => exact h.abandonAll.congr rfl rfl rfl
  | answer hCall hStage hSlot =>
      refine h.move hCall ⟨nofun, fun m' hStage' => ?_⟩ (by simp [Call.holdsEntry_iff, hSlot])
      cases hStage'
      exact hSlot
  | close hCall hStage hSlot =>
      exact h.move hCall ⟨nofun, nofun⟩ (by simp [Call.holdsEntry_iff, hSlot])
  | giveUp hCall hStage hSlot =>
      exact h.move hCall ⟨nofun, nofun⟩ (by simp [Call.holdsEntry_iff, hStage])
  | @withdraw id c hCall hStage =>
      refine h.update (c := { c with stage := .ended .timedOut }) rfl (by simp)
        (fun _ => call?_move_of_ne) (fun n hn => mem_pending_removeEntry.trans (and_iff_left hn))
        (h.nodup_pending.filter _) (call?_move_self hCall) ⟨nofun, nofun⟩ ?_
      simp [mem_pending_removeEntry, Call.holdsEntry_iff]

end Sound

/-! ### One command among the others -/

/-- The steps of the command numbered `n`, and the stages to which they lead. -/
inductive Moves (n : Nat) (c : Call) : Event → Stage → Prop where
  | enter (hStage : c.stage = .numbered) : Moves n c (.enter n) .entered
  | refuse (hStage : c.stage = .entered) : Moves n c (.handOn n) (.ended .unsent)
  | handOn (hStage : c.stage = .entered) : Moves n c (.handOn n) .waiting
  | answer {m : Json} (hStage : c.stage = .waiting) (hSlot : c.slot = .filled m) :
      Moves n c (.wake n) (.ended (.answered m))
  | close (hStage : c.stage = .waiting) (hSlot : c.slot = .abandoned) :
      Moves n c (.wake n) (.ended .closed)
  | giveUp (hStage : c.stage = .waiting) (hSlot : c.slot = .empty) : Moves n c (.giveUp n) .overdue
  | withdraw (hStage : c.stage = .overdue) : Moves n c (.withdraw n) (.ended .timedOut)

theorem Moves.enters_of_ne (h : Moves id c e stage) (hn : n ≠ id) : e.enters n = false := by
  cases h <;> simp [Event.enters, hn.symm]

theorem Moves.replyTo?_eq_none (h : Moves id c e stage) (n : Nat) : e.replyTo? n = none := by
  cases h <;> rfl

/-- What an event can do to the command numbered `n`: nothing, or let it begin, or move it on, or do
something to the slot that its entry leads to. -/
inductive Touches (d : Dispatch) (n : Nat) : Event → Option Call → Option Call → Prop where
  | keep {e : Event} (call : Option Call) (hEnters : e.enters n = false)
      (hReply : e.replyTo? n = none ∨ n ∉ d.pending) : Touches d n e call call
  | begin (method : String) (params : Json) :
      Touches d n (.begin method params) none (some ⟨method, params, .numbered, .empty⟩)
  | move {e : Event} {c : Call} {stage : Stage} (hMoves : Moves n c e stage)
      (hRefused : stage = .ended .unsent → d.writing = false) :
      Touches d n e (some c) (some { c with stage })
  | fill {text : String} {m : Json} {c : Call} (hReply : replyOf? text = some (n, m))
      (hMem : n ∈ d.pending) : Touches d n (.receive text) (some c) (some { c with slot := .filled m })
  | abandon {c : Call} (hMem : n ∈ d.pending) :
      Touches d n .clear (some c) (some { c with slot := .abandoned })

theorem touches_move (h : d.call? id = some c) (hMoves : Moves id c e stage)
    (hRefused : stage = .ended .unsent → d.writing = false) (n : Nat) :
    d.Touches n e (d.call? n) ((d.move id stage).call? n) := by
  by_cases hn : n = id
  · subst hn
    rw [h, call?_move_self h]
    exact .move hMoves hRefused
  · rw [call?_move_of_ne hn]
    exact .keep _ (hMoves.enters_of_ne hn) (.inl (hMoves.replyTo?_eq_none n))

theorem Sound.touches_take (h : d.Sound) (text : String) (n : Nat) :
    d.Touches n (.receive text) (d.call? n) ((d.take text).call? n) := by
  rw [call?_take]
  split
  · next m hBrings =>
      obtain ⟨_, hText, hReply⟩ := Event.replyTo?_eq_some_iff.mp hBrings
      cases hText
      split
      · next hMem =>
          obtain ⟨c, hCall, _⟩ := (h.mem_pending_iff n).mp hMem
          rw [hCall]
          exact .fill hReply hMem
      · next hMem => exact .keep _ rfl (.inr hMem)
  · next hNone => exact .keep _ rfl (.inl hNone)

theorem Sound.touches (h : d.Sound) (hStep : d.step e = some d') (n : Nat) :
    d.Touches n e (d.call? n) (d'.call? n) := by
  cases happens_of_step hStep with
  | begin method params =>
      by_cases hn : n = d.nextId
      · subst hn
        rw [h.call?_nextId]
        simpa [call?] using Touches.begin method params
      · have hKeep : call? { d with
            nextId := d.nextId + 1
            calls := (d.nextId, ⟨method, params, .numbered, .empty⟩) :: d.calls } n = d.call? n := by
          rw [call?, call?, List.lookup_cons, beq_eq_false_iff_ne.mpr hn]
        rw [hKeep]
        exact .keep _ rfl (.inl rfl)
  | enter hCall hStage => exact touches_move hCall (.enter hStage) nofun n
  | refuse hCall hStage hWriting => exact touches_move hCall (.refuse hStage) (fun _ => hWriting) n
  | handOn hCall hStage _ _ => exact touches_move hCall (.handOn hStage) nofun n
  | write _ => exact .keep _ rfl (.inl rfl)
  | stopWriting _ => exact .keep _ rfl (.inl rfl)
  | receive text _ => exact h.touches_take text n
  | stopReading _ => exact .keep _ rfl (.inl rfl)
  | clear _ =>
      have hClear : call? { d.abandonAll with reader := .stopped } n = d.abandonAll.call? n := rfl
      rw [hClear, call?_abandonAll]
      split
      · next hMem =>
          obtain ⟨c, hCall, _⟩ := (h.mem_pending_iff n).mp hMem
          rw [hCall]
          exact .abandon hMem
      · exact .keep _ rfl (.inl rfl)
  | answer hCall hStage hSlot => exact touches_move hCall (.answer hStage hSlot) nofun n
  | close hCall hStage hSlot => exact touches_move hCall (.close hStage hSlot) nofun n
  | giveUp hCall hStage hSlot => exact touches_move hCall (.giveUp hStage hSlot) nofun n
  | withdraw hCall hStage => exact touches_move hCall (.withdraw hStage) nofun n

/-! ### Runs -/

theorem run_append (first second : List Event) :
    d.run (first ++ second) = (d.run first).bind fun d => d.run second := by
  induction first generalizing d with
  | nil => rfl
  | cons e rest ih =>
      rw [List.cons_append, run, run, Option.bind_assoc]
      exact congrArg _ (funext fun d => ih)

theorem run_concat : d.run (events ++ [e]) = (d.run events).bind fun d => d.step e := by
  rw [run_append]
  exact congrArg _ (funext fun d => Option.bind_fun_some _)

/-- What holds at first, and is kept by every event, holds after any run. `P` may speak of the events so
far. -/
theorem run_induction {P : List Event → Dispatch → Prop} (hStart : P [] d)
    (hStep : ∀ events d e d', P events d → d.step e = some d' → P (events ++ [e]) d')
    (h : d.run events = some d') : P events d' := by
  induction events using List.reverseRecOn generalizing d' with
  | nil =>
      cases h
      exact hStart
  | append_singleton events e ih =>
      rw [run_concat] at h
      obtain ⟨before, hBefore, hLast⟩ := Option.bind_eq_some_iff.mp h
      exact hStep events before e d' (ih hBefore) hLast

theorem Sound.run (h : d.Sound) (hRun : d.run events = some d') : d'.Sound :=
  run_induction (P := fun _ => Sound) h (fun _ _ _ _ h hStep => h.step hStep) hRun

theorem Sound.run_induction {P : List Event → Dispatch → Prop} (h : d.Sound) (hStart : P [] d)
    (hStep : ∀ events d e d', d.Sound → P events d → d.step e = some d' → P (events ++ [e]) d')
    (hRun : d.run events = some d') : P events d' := by
  have hBoth : d'.Sound ∧ P events d' := by
    refine Dispatch.run_induction (P := fun events d => d.Sound ∧ P events d) ⟨h, hStart⟩ ?_ hRun
    rintro events d e d' ⟨hSound, hP⟩ hNext
    exact ⟨hSound.step hNext, hStep events d e d' hSound hP hNext⟩
  exact hBoth.2

end Dispatch

end PageLogic.DevTools
