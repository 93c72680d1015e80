import PageLogic.Check
import PageLogic.Proofs.Search.Delivery
/-!
What checks come to. Whether a goal holds is decided by the first item that its search delivers.
-/
namespace PageLogic.Check

variable {σ : Type} {o : Oracle σ} {K : σ → Prop} {c : Context} {supply : Nat} {w : World σ}

/-- Whether a goal with these items holds. -/
def verdict : List Item → Except Error Bool
  | [] => .ok false
  | .ok _ :: _ => .ok true
  | .error e :: _ => .error e

theorem holds_eq {g : Goal} {items : List Item} (h : (g c (.start supply)).Delivers o K items)
    (hw : K w.state) :
    ∃ w', holds o c supply g w = (verdict items, w') ∧ K w'.state := by
  have hSettle := h.settle w
  unfold holds Goal.solve
  generalize (g c (.start supply)).settle w = settled at hSettle ⊢
  obtain ⟨search, w₁⟩ := settled
  obtain ⟨hSettled, hState⟩ := hSettle
  rw [← hState] at hw
  cases items with
  | nil =>
      obtain ⟨w', hPull, hw'⟩ := hSettled.pull_nil hw
      exact ⟨w', by simp only [hPull, verdict], hw'⟩
  | cons item items =>
      obtain ⟨rest, w', hPull, _, hw'⟩ := hSettled.pull_cons hw
      cases item with
      | ok b => exact ⟨w', by simp only [hPull, verdict], hw'⟩
      | error e => exact ⟨w', by simp only [hPull, verdict], hw'⟩

end PageLogic.Check
