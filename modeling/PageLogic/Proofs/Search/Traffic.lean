import PageLogic.Proofs.Search.Delivery
/-!
What searches ask, and when. An oracle can keep a record of its questions; `Search.Asks` bounds what a
search can leave there, whatever the answers. Where the answers are fixed, `Search.Goes` lists questions
and items in the order in which they come, so that a visit which stops early has asked what stands
before the last item that it saw.
-/
namespace PageLogic

variable {σ : Type} {o : Oracle σ} {a : Answers}

/-- The oracle with a record of the questions that it was asked, the oldest first. -/
def Oracle.recording (o : Oracle σ) : Oracle (σ × List Question) where
  answer q s := ((o.answer q s.1).1, (o.answer q s.1).2, s.2 ++ [q])

namespace Reading

variable {α β : Type}

/-- The questions of a reading, in order. -/
def questions (a : Answers) : Reading α → List Question
  | .value _ => []
  | .fault _ => []
  | .ask q next => q :: (next (a q)).questions a

/-- With some answers the reading comes to this question. -/
def CanAsk (q : Question) : Reading α → Prop
  | .value _ => False
  | .fault _ => False
  | .ask q' next => q = q' ∨ ∃ r, (next r).CanAsk q

theorem canAsk_of {q q' : Question} {f : q'.Value → α} (h : (of q' f).CanAsk q) : q = q' := by
  rcases h with hEq | ⟨x | e, hLater⟩
  · exact hEq
  · exact hLater.elim
  · exact hLater.elim

theorem canAsk_andThen {q : Question} {r : Reading α} {f : α → Reading β}
    (h : (r.andThen f).CanAsk q) : r.CanAsk q ∨ ∃ x, (f x).CanAsk q := by
  induction r with
  | value x => exact .inr ⟨x, h⟩
  | fault e => exact h.elim
  | ask q' next ih =>
      rcases h with hEq | ⟨answer, hLater⟩
      · exact .inl (.inl hEq)
      · exact (ih answer hLater).imp_left fun h => .inr ⟨answer, h⟩

theorem canAsk_map {q : Question} {r : Reading α} {f : α → β} (h : (r.map f).CanAsk q) :
    r.CanAsk q :=
  (canAsk_andThen h).resolve_right fun ⟨_, h⟩ => h.elim

end Reading

namespace Search

variable {s t : Search} {P : Question → Prop}

/-- The items of the first `n` pulls, and the world after them. -/
def pullsTo (o : Oracle σ) : Nat → Search → World σ → List Item × World σ
  | 0, _, w => ([], w)
  | n + 1, s, w =>
    match s.pull o w with
    | (.item item rest, w) => (item :: (pullsTo o n rest w).1, (pullsTo o n rest w).2)
    | (.ended, w) => ([], w)

/-! ### Before the first pull -/

/-- No question stands in front of the first item, nor a mark: whatever is to be done is put off until
the search is pulled. -/
def IsDeferred : Search → Prop
  | .note _ _ => False
  | .ask _ _ => False
  | _ => True

/-- Carries out at once what is not put off: leaves the marks and asks the questions that stand in front
of the first item or delay. -/
def begin (o : Oracle σ) : Search → World σ → Search × World σ
  | .note m rest, w => begin o rest (w.mark m)
  | .ask q next, w => begin o (next (o.answer q w.state).1) ⟨(o.answer q w.state).2, w.marks⟩
  | s, w => (s, w)

theorem IsDeferred.begin_eq (h : s.IsDeferred) (o : Oracle σ) (w : World σ) :
    s.begin o w = (s, w) := by
  cases s with
  | note m rest => exact h.elim
  | ask q next => exact h.elim
  | _ => rfl

theorem isDeferred_ofOption (b : Option Branch) : (ofOption b).IsDeferred := by
  cases b <;> trivial

theorem isDeferred_each {α : Type} (f : α → Search) (l : List α) : (each f l).IsDeferred := by
  cases l <;> trivial

theorem IsDeferred.append (hs : s.IsDeferred) (ht : t.IsDeferred) : (s.append t).IsDeferred := by
  cases s with
  | done => exact ht
  | note m rest => exact hs.elim
  | ask q next => exact hs.elim
  | _ => trivial

/-- What branches are continued with does not matter: it is begun only when they are pulled. -/
theorem IsDeferred.bind (hs : s.IsDeferred) (f : Branch → Search) : (s.bind f).IsDeferred := by
  cases s with
  | emit item rest => cases item <;> trivial
  | note m rest => exact hs.elim
  | ask q next => exact hs.elim
  | _ => trivial

theorem IsDeferred.first (hs : s.IsDeferred) : s.first.IsDeferred := by
  cases s with
  | note m rest => exact hs.elim
  | ask q next => exact hs.elim
  | _ => trivial

/-! ### Whatever the answers -/

/-- Every question of the search satisfies `P`, whatever was answered before. A search that draws on an
endless supply is not of this kind. -/
def Asks (P : Question → Prop) : Search → Prop
  | .done => True
  | .emit _ rest => Asks P rest
  | .note _ rest => Asks P rest
  | .delay rest => Asks P (rest ())
  | .ask q next => P q ∧ ∀ r, Asks P (next r)
  | .forever .. => False
  | .seek .. => False

namespace Asks

theorem mono {Q : Question → Prop} (h : s.Asks P) (hPQ : ∀ q, P q → Q q) : s.Asks Q := by
  induction s with
  | done => trivial
  | emit item rest ih => exact ih h
  | note m rest ih => exact ih h
  | delay rest ih => exact ih () h
  | ask q next ih => exact ⟨hPQ q h.1, fun r => ih r (h.2 r)⟩
  | forever part start _ => exact h.elim
  | seek part start next _ _ => exact h.elim

theorem ofOption (b : Option Branch) : (Search.ofOption b).Asks P := by
  cases b <;> trivial

theorem append (h : s.Asks P) (ht : t.Asks P) : (s.append t).Asks P := by
  induction s with
  | done => exact ht
  | emit item rest ih => exact ih h
  | note m rest ih => exact ih h
  | delay rest ih => exact ih () h
  | ask q next ih => exact ⟨h.1, fun r => ih r (h.2 r)⟩
  | forever part start _ => exact h.elim
  | seek part start next _ _ => exact h.elim

theorem bind {f : Branch → Search} (h : s.Asks P) (hf : ∀ b, (f b).Asks P) : (s.bind f).Asks P := by
  induction s with
  | done => trivial
  | emit item rest ih =>
      cases item with
      | ok b => exact (hf b).append (ih h)
      | error e => exact ih h
  | note m rest ih => exact ih h
  | delay rest ih => exact ih () h
  | ask q next ih => exact ⟨h.1, fun r => ih r (h.2 r)⟩
  | forever part start _ => exact h.elim
  | seek part start next _ _ => exact h.elim

theorem first (h : s.Asks P) : s.first.Asks P := by
  induction s with
  | done => trivial
  | emit item rest _ => trivial
  | note m rest ih => exact ih h
  | delay rest ih => exact ih () h
  | ask q next ih => exact ⟨h.1, fun r => ih r (h.2 r)⟩
  | forever part start _ => exact h.elim
  | seek part start next _ _ => exact h.elim

theorem each {α : Type} {f : α → Search} {l : List α} (h : ∀ x, (f x).Asks P) :
    (Search.each f l).Asks P := by
  induction l with
  | nil => trivial
  | cons x rest ih => exact (h x).append ih

theorem read {α : Type} {r : Reading α} {f : Except Fault α → Search}
    (hRead : ∀ q, r.CanAsk q → P q) (hf : ∀ x, (f x).Asks P) : (Search.read r f).Asks P := by
  induction r with
  | value x => exact hf (.ok x)
  | fault e => exact hf (.error e)
  | ask q next ih =>
      exact ⟨hRead q (.inl rfl), fun answer => ih answer fun q' h => hRead q' (.inr ⟨answer, h⟩)⟩

/-- A pull leaves questions of this kind on the record, and a search that asks no others. -/
theorem pull (h : s.Asks P) {w : World (σ × List Question)} (hw : ∀ q ∈ w.state.2, P q) :
    (∀ q ∈ (s.pull o.recording w).2.state.2, P q) ∧
      match (s.pull o.recording w).1 with
      | .item _ rest => rest.Asks P
      | .ended => True := by
  induction s generalizing w with
  | done => exact ⟨hw, trivial⟩
  | emit item rest _ => exact ⟨hw, h⟩
  | note m rest ih => exact ih h hw
  | delay rest ih => exact ih () h hw
  | ask q next ih =>
      refine ih _ (h.2 _) fun q' hq' => ?_
      rcases List.mem_append.mp hq' with hOld | hNew
      · exact hw q' hOld
      · rw [List.mem_singleton.mp hNew]
        exact h.1
  | forever part start _ => exact h.elim
  | seek part start next _ _ => exact h.elim

/-- However many items are pulled, every question on the record is of this kind. -/
theorem pullsTo (h : s.Asks P) (n : Nat) {w : World (σ × List Question)}
    (hw : ∀ q ∈ w.state.2, P q) : ∀ q ∈ (s.pullsTo o.recording n w).2.state.2, P q := by
  induction n generalizing s w with
  | zero => exact hw
  | succ n ih =>
      have hPull := h.pull (o := o) hw
      rw [Search.pullsTo]
      generalize s.pull o.recording w = pulled at hPull ⊢
      obtain ⟨⟨item, rest⟩ | _, w'⟩ := pulled
      · exact ih hPull.2 hPull.1
      · exact hPull.1

end Asks

/-! ### With fixed answers -/

/-- What a search does next. -/
inductive Step where
  | asks (q : Question)
  | delivers (item : Item)

/-- With these answers the search goes through these steps, one after the other, and then ends. -/
inductive Goes (a : Answers) : Search → List Step → Prop where
  | done : Goes a .done []
  | emit {item : Item} {rest : Search} {steps : List Step} (h : Goes a rest steps) :
      Goes a (.emit item rest) (.delivers item :: steps)
  | note {m : Mark} {rest : Search} {steps : List Step} (h : Goes a rest steps) :
      Goes a (.note m rest) steps
  | delay {rest : Unit → Search} {steps : List Step} (h : Goes a (rest ()) steps) :
      Goes a (.delay rest) steps
  | ask {q : Question} {next : Except Fault q.Value → Search} {steps : List Step}
      (h : Goes a (next (a q)) steps) : Goes a (.ask q next) (.asks q :: steps)

/-- A visitor's walk along the steps: what it comes to, and what is asked meanwhile. -/
def visitSteps {α : Type} (f : α → Item → Visit α) : List Step → α → Visit α × List Question
  | [], x => (.more x, [])
  | .asks q :: rest, x => ((visitSteps f rest x).1, q :: (visitSteps f rest x).2)
  | .delivers item :: rest, x =>
    match f x item with
    | .more x => visitSteps f rest x
    | .enough x => (.enough x, [])

/-- What `n` pulls take from the steps: the items, and the questions in between. -/
def pullSteps : Nat → List Step → List Item × List Question
  | 0, _ => ([], [])
  | _ + 1, [] => ([], [])
  | n + 1, .asks q :: rest => ((pullSteps (n + 1) rest).1, q :: (pullSteps (n + 1) rest).2)
  | n + 1, .delivers item :: rest => (item :: (pullSteps n rest).1, (pullSteps n rest).2)

theorem visitSteps_asks {α : Type} (f : α → Item → Visit α) (questions : List Question)
    (steps : List Step) (x : α) :
    visitSteps f (questions.map .asks ++ steps) x =
      ((visitSteps f steps x).1, questions ++ (visitSteps f steps x).2) := by
  induction questions with
  | nil => rfl
  | cons q rest ih => rw [List.map_cons, List.cons_append, visitSteps, ih, List.cons_append]

namespace Goes

variable {steps more : List Step}

theorem ofOption (b : Option Branch) :
    (Search.ofOption b).Goes a (b.toList.map fun r => .delivers (.ok r)) := by
  cases b with
  | none => exact .done
  | some b => exact .emit .done

theorem failure (e : Error) : (Search.failure e).Goes a [.delivers (.error e)] :=
  .emit .done

theorem append (h : s.Goes a steps) (ht : t.Goes a more) : (s.append t).Goes a (steps ++ more) := by
  induction h with
  | done => exact ht
  | emit _ ih => exact ih.emit
  | note _ ih => exact ih.note
  | delay _ ih => exact ih.delay
  | ask _ ih => exact ih.ask

theorem each {α : Type} {f : α → Search} {g : α → List Step} {l : List α}
    (h : ∀ x, (f x).Goes a (g x)) : (Search.each f l).Goes a (l.flatMap g) := by
  induction l with
  | nil => exact .done
  | cons x rest ih => exact ((h x).append ih).delay

theorem read {α : Type} {r : Reading α} {f : Except Fault α → Search}
    (h : (f (r.outcome a)).Goes a steps) :
    (Search.read r f).Goes a ((r.questions a).map .asks ++ steps) := by
  induction r with
  | value x => exact h
  | fault e => exact h
  | ask q next ih => exact (ih (a q) h).ask

/-- A visitor walks along the steps, and the oracle is asked what stands before the last of them. -/
theorem visit_eq {α : Type} (h : s.Goes a steps) (f : α → Item → Visit α) (x : α) {w : World σ}
    (hw : o.Steady a w.state) :
    (s.visit o f x w).1 = (visitSteps f steps x).1 ∧
      (s.visit o f x w).2.state = o.after (visitSteps f steps x).2 w.state := by
  induction h generalizing x w with
  | done => exact ⟨rfl, rfl⟩
  | @emit item rest steps _ ih =>
      rw [visit_emit, visitSteps]
      cases f x item with
      | more x => exact ih x hw
      | enough x => exact ⟨rfl, rfl⟩
  | note _ ih =>
      rw [visit_note]
      exact ih x hw
  | delay _ ih =>
      rw [visit_delay]
      exact ih x hw
  | @ask q next steps _ ih =>
      have hAnswer : (o.answer q w.state).1 = a q := hw [] q
      rw [visit_ask, hAnswer]
      exact ih x (hw.next q)

/-- Pulls take the items from the steps one by one, and the oracle is asked what stands in between. -/
theorem pullsTo_eq (h : s.Goes a steps) (n : Nat) {w : World σ} (hw : o.Steady a w.state) :
    (s.pullsTo o n w).1 = (pullSteps n steps).1 ∧
      (s.pullsTo o n w).2.state = o.after (pullSteps n steps).2 w.state := by
  induction n generalizing s steps w with
  | zero => exact ⟨by rw [pullsTo, pullSteps], by rw [pullsTo, pullSteps]; rfl⟩
  | succ n ihPulls =>
      induction h generalizing w with
      | done => exact ⟨rfl, rfl⟩
      | emit h =>
          obtain ⟨hItems, hState⟩ := ihPulls h hw
          rw [pullsTo, pull_emit, pullSteps]
          exact ⟨congrArg _ hItems, hState⟩
      | note _ ih =>
          rw [pullsTo, pull_note, ← pullsTo]
          exact ih hw
      | delay _ ih =>
          rw [pullsTo, pull_delay, ← pullsTo]
          exact ih hw
      | @ask q next steps _ ih =>
          have hAnswer : (o.answer q w.state).1 = a q := hw [] q
          rw [pullsTo, pull_ask, hAnswer, ← pullsTo, pullSteps]
          exact ih (hw.next q)

/-- Settling leaves the steps and the state as they are. -/
theorem settle (h : s.Goes a steps) (w : World σ) :
    (s.settle w).1.Goes a steps ∧ (s.settle w).2.state = w.state := by
  induction h generalizing w with
  | done => exact ⟨.done, rfl⟩
  | emit h => exact ⟨h.emit, rfl⟩
  | note _ ih => exact ih _
  | delay h => exact ⟨h.delay, rfl⟩
  | ask h => exact ⟨h.ask, rfl⟩

end Goes

end Search

/-- A run that wants answers collects them along the steps and asks what stands before the last item
that it sees; one that wants none asks nothing. -/
theorem Goal.run_eq_visitSteps {c : Context} {supply : Nat} {goal : Term → Goal}
    {steps : List Search.Step}
    (h : (goal (.var ⟨supply⟩) c (.start (supply + 1))).Goes a steps) {w : World σ}
    (hw : o.Steady a w.state) :
    (run o c (some 0) supply goal w).2.state = w.state ∧
      ∀ n,
        let collected :=
          Search.visitSteps (collect (.var ⟨supply⟩)) steps (.ok ⟨[], some (n + 1)⟩)
        (run o c (some (n + 1)) supply goal w).1 =
            collected.1.value.map (·.answers.reverse) ∧
          (run o c (some (n + 1)) supply goal w).2.state = o.after collected.2 w.state := by
  obtain ⟨hSettled, hState⟩ := h.settle w
  refine ⟨hState, fun n => ?_⟩
  rw [← hState] at hw ⊢
  obtain ⟨hVisit, hAfter⟩ :=
    hSettled.visit_eq (collect (.var ⟨supply⟩)) (.ok ⟨[], some (n + 1)⟩) hw
  exact ⟨by rw [← hVisit]; rfl, hAfter⟩

theorem Goal.length_of_answers {r : Except Error Collected} {answers : List Term}
    (h : r.map (·.answers.reverse) = .ok answers) :
    ∃ collected, r = .ok collected ∧ answers.length = collected.answers.length := by
  cases r with
  | error e => cases h
  | ok collected =>
      obtain rfl := Except.ok.inj h
      exact ⟨collected, rfl, List.length_reverse⟩

end PageLogic
