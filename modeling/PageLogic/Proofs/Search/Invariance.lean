import PageLogic.Check
/-!
What searches leave alone. A property of the oracle's state that no question disturbs is not disturbed
by a pull or a visit either, whatever the search, nor by a query that is run to its end.
-/
namespace PageLogic

variable {σ : Type} {o : Oracle σ} {K : σ → Prop}

/-- No question takes the oracle out of the states of the kind `K`. -/
def Oracle.Keeps (o : Oracle σ) (K : σ → Prop) : Prop :=
  ∀ q s, K s → K (o.answer q s).2

namespace Search

theorem settle_state (s : Search) (w : World σ) : (s.settle w).2.state = w.state := by
  induction s generalizing w with
  | note m rest ih => exact ih _
  | _ => rfl

theorem pullParts_keeps {pullPart : Nat → World σ → Pulled × World σ}
    (hPart : ∀ n w, K w.state → K (pullPart n w).2.state) (limit n : Nat) {w : World σ}
    (hw : K w.state) : K (pullParts pullPart limit n w).2.state := by
  induction limit generalizing n w with
  | zero => exact hw
  | succ limit ih =>
      have hHead := hPart n w hw
      rw [pullParts]
      generalize pullPart n w = pulled at hHead ⊢
      obtain ⟨_ | _, w₁⟩ := pulled
      · exact hHead
      · exact ih (n + 1) hHead

theorem pullWithin_keeps (hKeeps : o.Keeps K) (limit : Nat) (s : Search) {w : World σ}
    (hw : K w.state) : K (s.pullWithin limit o w).2.state := by
  induction s generalizing w with
  | done => exact hw
  | emit item rest _ => exact hw
  | note m rest ih => exact ih hw
  | delay rest ih => exact ih () hw
  | ask q next ih => exact ih _ (hKeeps q _ hw)
  | forever part start ih =>
      have hParts := pullParts_keeps (fun n w hw => ih n hw) limit start hw
      rw [pullWithin]
      generalize pullParts (fun n w => pullWithin limit o (part n) w) limit start w = pulled
        at hParts ⊢
      obtain ⟨_ | ⟨i, rest, n⟩, w₁⟩ := pulled <;> exact hParts
  | seek part start next ih ihNext =>
      have hParts := pullParts_keeps (fun n w hw => ih n hw) limit start hw
      rw [pullWithin]
      generalize pullParts (fun n w => pullWithin limit o (part n) w) limit start w = pulled
        at hParts ⊢
      obtain ⟨_ | ⟨i, rest, n⟩, w₁⟩ := pulled
      · exact hParts
      · exact ihNext i hParts

theorem pull_keeps (hKeeps : o.Keeps K) (s : Search) {w : World σ} (hw : K w.state) :
    K (s.pull o w).2.state :=
  s.pullWithin_keeps hKeeps patience hw

theorem visitParts_keeps {α : Type} {visitPart : Nat → α → World σ → Visit α × World σ}
    (hPart : ∀ n a w, K w.state → K (visitPart n a w).2.state) (limit n : Nat) (a : α)
    {w : World σ} (hw : K w.state) : K (visitParts visitPart limit n a w).2.state := by
  induction limit generalizing n a w with
  | zero => exact hw
  | succ limit ih =>
      have hHead := hPart n a w hw
      rw [visitParts]
      generalize visitPart n a w = visited at hHead ⊢
      obtain ⟨_ | _, w₁⟩ := visited
      · exact ih (n + 1) _ hHead
      · exact hHead

theorem visitWithin_keeps {α : Type} (hKeeps : o.Keeps K) (limit : Nat) (f : α → Item → Visit α)
    (s : Search) (a : α) {w : World σ} (hw : K w.state) :
    K (s.visitWithin limit o f a w).2.state := by
  induction s generalizing a w with
  | done => exact hw
  | emit item rest ih =>
      rw [visitWithin]
      cases f a item with
      | more a => exact ih a hw
      | enough a => exact hw
  | note m rest ih => exact ih a hw
  | delay rest ih => exact ih () a hw
  | ask q next ih => exact ih _ a (hKeeps q _ hw)
  | forever part start ih =>
      rw [visitWithin]
      exact visitParts_keeps (fun n a w hw => ih n a hw) limit start a hw
  | seek part start next ih ihNext =>
      have hParts := pullParts_keeps
        (fun n _ hw => (part n).pullWithin_keeps hKeeps limit hw) limit start hw
      rw [visitWithin]
      generalize pullParts (fun n w => pullWithin limit o (part n) w) limit start w = pulled
        at hParts ⊢
      obtain ⟨_ | ⟨i, rest, n⟩, w₁⟩ := pulled
      · exact hParts
      · exact ihNext i a hParts

theorem visit_keeps {α : Type} (hKeeps : o.Keeps K) (f : α → Item → Visit α) (s : Search) (a : α)
    {w : World σ} (hw : K w.state) : K (s.visit o f a w).2.state :=
  s.visitWithin_keeps hKeeps patience f a hw

end Search

theorem Goal.solve_state (c : Context) (supply : Nat) (g : Goal) (w : World σ) :
    (g.solve c supply w).2.state = w.state :=
  Search.settle_state _ w

theorem Goal.run_keeps (hKeeps : o.Keeps K) (c : Context) (limit : Option Nat) (supply : Nat)
    (goal : Term → Goal) {w : World σ} (hw : K w.state) :
    K (Goal.run o c limit supply goal w).2.state := by
  rw [← Goal.solve_state c (supply + 1) (goal (.var ⟨supply⟩)) w] at hw
  rw [Goal.run]
  generalize Goal.solve c (supply + 1) (goal (.var ⟨supply⟩)) w = solved at hw ⊢
  by_cases hNone : limit = some 0
  · simp only [if_pos hNone]
    exact hw
  · simp only [if_neg hNone]
    exact Search.visit_keeps hKeeps _ _ _ hw

theorem Check.holds_keeps (hKeeps : o.Keeps K) (c : Context) (supply : Nat) (g : Goal)
    {w : World σ} (hw : K w.state) : K (Check.holds o c supply g w).2.state := by
  rw [← Goal.solve_state c supply g w] at hw
  rw [Check.holds]
  generalize g.solve c supply w = solved at hw ⊢
  obtain ⟨search, w₁⟩ := solved
  have hPull := Search.pull_keeps hKeeps search hw
  simp only
  generalize search.pull o w₁ = pulled at hPull ⊢
  obtain ⟨⟨_ | _, _⟩ | _, w'⟩ := pulled <;> exact hPull

theorem Check.solutionCount_keeps (hKeeps : o.Keeps K) (c : Context) (supply : Nat) (g : Goal)
    {w : World σ} (hw : K w.state) : K (Check.solutionCount o c supply g w).2.state := by
  rw [← Goal.solve_state c supply g w] at hw
  exact Search.visit_keeps hKeeps _ _ _ hw

end PageLogic
