import PageLogic.DevTools.Endpoint
import PageLogic.Proofs.DevTools.Replies
/-!
Which entries the table holds. While the writer takes commands these are the entries of the commands that
look for a reply, or have just stopped to; every command that ends takes its entry along, however it ends.
Two kinds of entries have no such end: that of a command which the writer refused stays behind, and one
that comes into the table after the reader threw away all entries is found by nobody.
-/
namespace PageLogic.DevTools.Dispatch

variable {d d' : Dispatch} {e : Event} {events : List Event} {n : Nat} {c : Call} {call call' : Option Call}
  {o : Outcome}

/-! ### Commands that the writer refused -/

theorem writing_of_step (hStep : d.step e = some d') (hWriting : d'.writing = true) : d.writing = true := by
  cases happens_of_step hStep with
  | receive text _ => rwa [writing_take] at hWriting
  | stopWriting => cases hWriting
  | _ => exact hWriting

/-- As long as the writer takes commands it has refused none. -/
theorem outcome?_ne_unsent (h : start.run events = some d) (hWriting : d.writing = true) (n : Nat) :
    d.outcome? n ≠ some .unsent := by
  have hNone : d.writing = true → ∀ n, d.outcome? n ≠ some .unsent := by
    refine sound_start.run_induction (P := fun _ d => d.writing = true → ∀ n, d.outcome? n ≠ some .unsent)
      (fun _ _ => nofun) ?_ h
    intro _ d e d' hSound hBefore hStep hWriting n hUnsent
    have hWriting := writing_of_step hStep hWriting
    obtain ⟨c', hCall', hStage'⟩ := outcome?_eq_some_iff.mp hUnsent
    have hTouches := hSound.touches hStep n
    rw [hCall'] at hTouches
    generalize hCall : d.call? n = call at hTouches
    cases hTouches with
    | keep => exact hBefore hWriting n (outcome?_eq_some_iff.mpr ⟨c', hCall, hStage'⟩)
    | begin => cases hStage'
    | move hMoves hRefused => exact absurd hWriting (by simp [hRefused hStage'])
    | fill | abandon => exact hBefore hWriting n (outcome?_eq_some_iff.mpr ⟨_, hCall, hStage'⟩)
  exact hNone hWriting n

/-! ### After the reader has stopped -/

/-- The command has entered itself and found nothing. -/
def Unheard (c : Call) : Prop :=
  c.slot = .empty ∧ (c.stage = .entered ∨ c.stage = .waiting ∨ c.stage = .overdue ∨
    c.stage = .ended .unsent ∨ c.stage = .ended .timedOut)

theorem reader_of_step (hStep : d.step e = some d') (hStopped : d.reader = .stopped) :
    d'.reader = .stopped := by
  cases happens_of_step hStep with
  | receive text hReading => exact absurd (hStopped.symm.trans hReading) nofun
  | stopReading hReading => exact absurd (hStopped.symm.trans hReading) nofun
  | clear => rfl
  | _ => exact hStopped

theorem mem_pending_of_step (hStep : d.step e = some d') (hMem : n ∈ d'.pending) :
    n ∈ d.pending ∨ e = .enter n := by
  cases happens_of_step hStep with
  | enter =>
      rcases List.mem_cons.mp hMem with rfl | hMem
      · exact .inr rfl
      · exact .inl hMem
  | receive text =>
      left
      by_cases hReply : ∃ id m, replyOf? text = some (id, m) ∧ id ∈ d.pending
      · obtain ⟨id, m, hReply, hEntry⟩ := hReply
        rw [take_of_mem hReply hEntry] at hMem
        exact (mem_pending_removeEntry.mp hMem).1
      · rwa [take_of_forall fun id m hId hEntry => hReply ⟨id, m, hId, hEntry⟩] at hMem
  | clear => cases hMem
  | withdraw => exact .inl (mem_pending_removeEntry.mp hMem).1
  | _ => exact .inl hMem

/-- Once the reader has stopped nothing comes into a slot any more. -/
theorem Touches.unheard (h : d.Touches n e (some c) call') (hStep : d.step e = some d')
    (hStopped : d.reader = .stopped) (hUnheard : Unheard c) : ∃ c', call' = some c' ∧ Unheard c' := by
  cases h with
  | keep => exact ⟨c, rfl, hUnheard⟩
  | move hMoves =>
      refine ⟨_, rfl, ?_⟩
      simp only [Unheard] at hUnheard ⊢
      cases hMoves <;> simp_all
  | fill | abandon => simp [step, hStopped] at hStep

/-- What is true after `events` from the moment at which the reader stopped. -/
structure Unread (events : List Event) (d : Dispatch) : Prop where
  stopped : d.reader = .stopped
  enter_mem : ∀ n ∈ d.pending, .enter n ∈ events
  unheard : ∀ n, .enter n ∈ events → ∃ c, d.call? n = some c ∧ Unheard c

theorem Unread.step (h : Unread events d) (hSound : d.Sound) (hStep : d.step e = some d') :
    Unread (events ++ [e]) d' where
  stopped := reader_of_step hStep h.stopped
  enter_mem n hMem := by
    rcases mem_pending_of_step hStep hMem with hMem | rfl
    · exact List.mem_append_left _ (h.enter_mem n hMem)
    · exact List.mem_append_right _ (List.mem_singleton_self _)
  unheard n hEnter := by
    rcases List.mem_append.mp hEnter with hEnter | hEnter
    · obtain ⟨c, hCall, hUnheard⟩ := h.unheard n hEnter
      have hTouches := hSound.touches hStep n
      rw [hCall] at hTouches
      exact hTouches.unheard hStep h.stopped hUnheard
    · obtain rfl := List.mem_singleton.mp hEnter
      cases happens_of_step hStep with
      | enter hCall hStage =>
          have hEmpty := (hSound.consistent n _ hCall).1 hStage
          exact ⟨_, call?_move_self hCall, hEmpty, .inl rfl⟩

theorem Sound.unread_run {d₁ : Dispatch} (h : d.Sound) (hClear : d.step .clear = some d₁)
    (hRun : d₁.run events = some d') : Unread events d' := by
  refine (h.step hClear).run_induction (P := Unread) ?_
    (fun _ _ _ _ hSound h hStep => h.step hSound hStep) hRun
  cases happens_of_step hClear with
  | clear => exact ⟨rfl, nofun, nofun⟩

/-! ### The table -/

/-- What is true of the entries in a state. -/
structure KeepsEntries (d : Dispatch) : Prop where
  /-- No number has two entries. -/
  nodup_pending : d.pending.Nodup
  /-- An entry belongs to a command that found nothing and looks for its reply, or is about to take the
  entry back, or was refused by the writer. -/
  mem_pending_iff : ∀ n, n ∈ d.pending ↔ ∃ c, d.call? n = some c ∧ c.slot = .empty ∧
    (c.stage = .entered ∨ c.stage = .waiting ∨ c.stage = .overdue ∨ c.stage = .ended .unsent)
  /-- While the writer takes commands, the entries are those of the commands that entered themselves, have
  not ended, and found nothing. -/
  mem_pending_iff_of_writing : d.writing = true → ∀ n, n ∈ d.pending ↔
    ∃ c, d.call? n = some c ∧ c.slot = .empty ∧ c.stage ≠ .numbered ∧ d.outcome? n = none
  /-- A command that ended with a result, a failure of the other side, a closed connection or for want of
  time has no entry. -/
  not_mem_pending : ∀ n o, d.outcome? n = some o → o ≠ .unsent → n ∉ d.pending
  /-- When the reader stops, the table is empty. From then on it holds the entries of those that enter
  themselves, until their time is up: they find nothing, and whoever was refused leaves its entry. -/
  mem_pending_iff_of_clear : ∀ d₁, d.step .clear = some d₁ → d₁.pending = [] ∧
    ∀ later d₂, d₁.run later = some d₂ → d₂.reader = .stopped ∧
      ∀ n, (n ∈ d₂.pending ↔ .enter n ∈ later ∧ d₂.outcome? n ≠ some .timedOut) ∧
        ∀ o, .enter n ∈ later → d₂.outcome? n = some o → o = .timedOut ∨ o = .unsent

/-- What a command that found nothing after the reader has stopped has to do with the table. -/
theorem Unread.mem_pending_iff (h : Unread events d) (hSound : d.Sound) (n : Nat) :
    n ∈ d.pending ↔ .enter n ∈ events ∧ d.outcome? n ≠ some .timedOut := by
  refine ⟨fun hMem => ⟨h.enter_mem n hMem, ?_⟩, fun ⟨hEnter, hNot⟩ => ?_⟩
  · obtain ⟨c, hCall, hEntry⟩ := (hSound.mem_pending_iff n).mp hMem
    rw [ne_eq, outcome?_of_call? hCall]
    intro hStage
    simp [Call.holdsEntry_iff, hStage] at hEntry
  · obtain ⟨c, hCall, hEmpty, hStage⟩ := h.unheard n hEnter
    rw [ne_eq, outcome?_of_call? hCall] at hNot
    rw [hSound.holdsEntry_iff hCall, Call.holdsEntry_iff]
    exact ⟨hEmpty, by tauto⟩

/-- The table holds no entry that nothing will take out, but those of commands that were refused and those
that came too late. -/
theorem entries_belong_to_commands (h : start.run events = some d) : d.KeepsEntries where
  nodup_pending := (sound_start.run h).nodup_pending
  mem_pending_iff n := by
    simp only [(sound_start.run h).mem_pending_iff n, Call.holdsEntry_iff]
  mem_pending_iff_of_writing hWriting n := by
    rw [(sound_start.run h).mem_pending_iff n]
    refine exists_congr fun c => and_congr_right fun hCall => ?_
    have hSent : c.stage ≠ .ended .unsent := by
      rw [ne_eq, ← outcome?_of_call? hCall]
      exact outcome?_ne_unsent h hWriting n
    rw [Call.holdsEntry_iff, Option.eq_none_iff_forall_ne_some]
    simp only [ne_eq, outcome?_of_call? hCall]
    cases hStage : c.stage <;> simp_all
  not_mem_pending n o hOutcome hSent hMem := by
    obtain ⟨c, hCall, hEntry⟩ := ((sound_start.run h).mem_pending_iff n).mp hMem
    rw [outcome?_of_call? hCall] at hOutcome
    simp [Call.holdsEntry_iff, hOutcome, hSent] at hEntry
  mem_pending_iff_of_clear d₁ hClear := by
    have hSound := sound_start.run h
    refine ⟨?_, fun later d₂ hLater => ?_⟩
    · cases happens_of_step hClear with
      | clear => rfl
    have hUnread := hSound.unread_run hClear hLater
    have hSound₂ := (hSound.step hClear).run hLater
    refine ⟨hUnread.stopped, fun n => ⟨hUnread.mem_pending_iff hSound₂ n, fun o hEnter hOutcome => ?_⟩⟩
    obtain ⟨c, hCall, _, hStage⟩ := hUnread.unheard n hEnter
    rw [outcome?_of_call? hCall] at hOutcome
    simp only [hOutcome, reduceCtorEq, Stage.ended.injEq, false_or] at hStage
    exact hStage.symm

/-- One command waits, and the other comes when the writer has stopped. -/
def refusal : List Event :=
  [.begin "Page.enable" .null, .enter 1, .handOn 1, .stopWriting,
    .begin "DOM.enable" .null, .enter 2, .handOn 2]

theorem entries_belong_to_commands_refusal :
    ∃ d, start.run refusal = some d ∧ d.outcome? 1 = none ∧ d.outcome? 2 = some .unsent ∧
      d.pending = [2, 1] ∧ d.KeepsEntries :=
  ⟨_, rfl, rfl, rfl, rfl, @entries_belong_to_commands _ refusal rfl⟩

/-- A command for which the connection is closed, and nothing else. -/
def closing : Scripted :=
  ⟨[], true, none⟩

/-- A command that was refused leaves its entry in the table. Once the reader has stopped and emptied the
table, a command can still enter itself and wait, so that the one after the close runs out of time. -/
theorem entries_stay_behind :
    (∃ d, start.run refusal = some d ∧ d.reader = .reading ∧ d.outcome? 2 = some .unsent ∧ 2 ∈ d.pending) ∧
    (∃ d c, start.run [.stopReading, .clear, .begin "DOM.enable" .null, .enter 1, .handOn 1] = some d ∧
      d.reader = .stopped ∧ d.pending = [1] ∧ d.call? 1 = some c ∧ c.stage = .waiting) ∧
    ((Endpoint.start [closing]).command "Page.enable" .null).2.dispatch.reader = .stopped ∧
    (((Endpoint.start [closing]).command "Page.enable" .null).2.command "DOM.enable" .null).1 = .timedOut :=
  ⟨⟨_, rfl, rfl, rfl, by decide⟩, ⟨_, _, rfl, rfl, rfl, rfl, rfl⟩, rfl, rfl⟩

end PageLogic.DevTools.Dispatch
