import PageLogic.Proofs.Search.Traffic
/-!
Delays do not show in what pulls deliver. `Search.undelayed` does at once what a search puts off; pulls
deliver the same items from it and leave the same world. So searches that differ in their delays only
cannot be told apart once they are pulled.
-/
namespace PageLogic

/-- The outcome of a pull with what is left changed. -/
def Pulled.map (f : Search → Search) : Pulled → Pulled
  | .item i rest => .item i (f rest)
  | .ended => .ended

namespace Search

variable {σ : Type} {o : Oracle σ} {s t : Search}

/-- The search with nothing put off. -/
def undelayed : Search → Search
  | .done => .done
  | .emit item rest => .emit item rest.undelayed
  | .note m rest => .note m rest.undelayed
  | .delay rest => (rest ()).undelayed
  | .ask q next => .ask q fun r => (next r).undelayed
  | .forever part start => .forever (fun n => (part n).undelayed) start
  | .seek part start next => .seek (fun n => (part n).undelayed) start fun item => (next item).undelayed

theorem undelayed_append (s t : Search) : (s.append t).undelayed = s.undelayed.append t.undelayed := by
  induction s with
  | forever part start _ => rfl
  | _ => simp_all [append, undelayed]

/-! ### Pulls -/

/-- If a change of every part shows in what is left of it only, so it does for all of them. -/
theorem pullParts_map {f : Search → Search} {pullPart pullPart' : Nat → World σ → Pulled × World σ}
    (hPart : ∀ n w, pullPart' n w = ((pullPart n w).1.map f, (pullPart n w).2)) (limit n : Nat)
    (w : World σ) :
    pullParts pullPart' limit n w =
      ((pullParts pullPart limit n w).1.map fun (item, rest, n) => (item, f rest, n),
        (pullParts pullPart limit n w).2) := by
  induction limit generalizing n w with
  | zero => rfl
  | succ limit ih =>
      rw [pullParts, pullParts, hPart]
      generalize pullPart n w = pulled
      obtain ⟨⟨item, rest⟩ | _, w⟩ := pulled
      · rfl
      · exact ih (n + 1) w

theorem pullWithin_undelayed (limit : Nat) (o : Oracle σ) (s : Search) (w : World σ) :
    s.undelayed.pullWithin limit o w =
      ((s.pullWithin limit o w).1.map undelayed, (s.pullWithin limit o w).2) := by
  induction s generalizing w with
  | done => rfl
  | emit item rest _ => rfl
  | note m rest ih => exact ih (w.mark m)
  | delay rest ih => exact ih () w
  | ask q next ih => exact ih _ _
  | forever part start ih =>
      have hParts := pullParts_map (fun n w => ih n w) limit start w
      rw [undelayed, pullWithin, pullWithin, hParts]
      generalize pullParts (fun n w => (part n).pullWithin limit o w) limit start w = found
      obtain ⟨_ | ⟨item, rest, n⟩, w⟩ := found
      · rfl
      · simp only [Option.map_some, Pulled.map, undelayed_append, undelayed]
  | seek part start next ihPart ihNext =>
      have hParts := pullParts_map (fun n w => ihPart n w) limit start w
      rw [undelayed, pullWithin, pullWithin, hParts]
      generalize pullParts (fun n w => (part n).pullWithin limit o w) limit start w = found
      obtain ⟨_ | ⟨item, rest, n⟩, w⟩ := found
      · rfl
      · exact ihNext item w

theorem pullsTo_undelayed (o : Oracle σ) (n : Nat) (s : Search) (w : World σ) :
    s.undelayed.pullsTo o n w = s.pullsTo o n w := by
  induction n generalizing s w with
  | zero => rfl
  | succ n ih =>
      rw [pullsTo, pullsTo, pull, pull, pullWithin_undelayed]
      generalize s.pullWithin patience o w = pulled
      obtain ⟨⟨item, rest⟩ | _, w⟩ := pulled
      · simp only [Pulled.map, ih]
      · rfl

/-- Searches that differ in their delays only deliver the same and leave the same world. -/
theorem pullsTo_congr (h : s.undelayed = t.undelayed) (o : Oracle σ) (n : Nat) (w : World σ) :
    s.pullsTo o n w = t.pullsTo o n w := by
  rw [← pullsTo_undelayed, h, pullsTo_undelayed]

/-- A search that is pulled at all leaves the marks that stand in front, if they have not been left. -/
theorem pullsTo_settle (o : Oracle σ) (n : Nat) (s : Search) (w : World σ) :
    (s.settle w).1.pullsTo o (n + 1) (s.settle w).2 = s.pullsTo o (n + 1) w := by
  induction s generalizing w with
  | note m rest ih => exact ih (w.mark m)
  | _ => rfl

/-! ### Searches that differ in delays only -/

theorem undelayed_unit_bind (b : Branch) (f : Branch → Search) :
    ((unit b).bind f).undelayed = (f b).undelayed := by
  simp [unit, bind, undelayed]

theorem undelayed_bind_unit (s : Search) : (s.bind unit).undelayed = s.undelayed := by
  induction s with
  | emit item rest ih =>
      cases item with
      | ok b => simp [bind, unit, append, undelayed, ih]
      | error e => simp [bind, undelayed, ih]
  | _ => simp_all [bind, undelayed]

end Search

end PageLogic
