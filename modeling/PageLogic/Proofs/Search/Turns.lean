import PageLogic.Proofs.Search.Traffic
/-!
Searches one after the other. A pull from an endless supply whose parts deliver nothing does not end;
`Search.pull?` tells such pulls, which find nothing within a limit, from those that come to the end of a
search. With that, a search that is joined from others is pulled as they are in turn: each is pulled until
it has ended, and only then the next is begun.
-/
namespace PageLogic.Search

variable {σ : Type} {o : Oracle σ} {limit : Nat} {s t : Search} {w : World σ}

/-! ### Pulls that come to an end -/

/-- The first item among the parts numbered from `n` on, if one of the next `limit` parts has one and all
before it have ended. -/
def findPart? (pullPart : Nat → World σ → Option (Pulled × World σ)) :
    (limit n : Nat) → World σ → Option ((Item × Search × Nat) × World σ)
  | 0, _, _ => none
  | limit + 1, n, w =>
    match pullPart n w with
    | some (.item i rest, w) => some ((i, rest, n), w)
    | some (.ended, w) => findPart? pullPart limit (n + 1) w
    | none => none

/-- The outcome of a pull, unless it looks through `limit` parts of an endless supply in vain. -/
def pull? (limit : Nat) (o : Oracle σ) : Search → World σ → Option (Pulled × World σ)
  | .done, w => some (.ended, w)
  | .emit item rest, w => some (.item item rest, w)
  | .note m rest, w => pull? limit o rest (w.mark m)
  | .delay rest, w => pull? limit o (rest ()) w
  | .ask q next, w =>
    let (r, state) := o.answer q w.state
    pull? limit o (next r) { w with state }
  | .forever part start, w =>
    (findPart? (fun n w => pull? limit o (part n) w) limit start w).map fun ((i, rest, n), w) =>
      (.item i (rest.append (.forever part (n + 1))), w)
  | .seek part start next, w =>
    (findPart? (fun n w => pull? limit o (part n) w) limit start w).bind fun ((i, _, _), w) =>
      pull? limit o (next i) w

theorem pullParts_of_findPart? {pullPart? : Nat → World σ → Option (Pulled × World σ)}
    {pullPart : Nat → World σ → Pulled × World σ}
    (hPart : ∀ n w r, pullPart? n w = some r → pullPart n w = r) {n : Nat} {found : Item × Search × Nat}
    {w' : World σ} (h : findPart? pullPart? limit n w = some (found, w')) :
    pullParts pullPart limit n w = (some found, w') := by
  induction limit generalizing n w with
  | zero => cases h
  | succ limit ih =>
      rw [findPart?] at h
      rw [pullParts]
      split at h
      · next hPull =>
          cases h
          rw [hPart _ _ _ hPull]
      · next hPull =>
          rw [hPart _ _ _ hPull]
          exact ih h
      · cases h

/-- A pull that comes to an end is a pull. -/
theorem pullWithin_of_pull? {r : Pulled × World σ} (h : s.pull? limit o w = some r) :
    s.pullWithin limit o w = r := by
  induction s generalizing w r with
  | done => exact Option.some.inj h
  | emit item rest _ => exact Option.some.inj h
  | note m rest ih => exact ih h
  | delay rest ih => exact ih () h
  | ask q next ih => exact ih _ h
  | forever part start ih =>
      obtain ⟨⟨⟨i, rest, n⟩, w'⟩, hFound, rfl⟩ := Option.map_eq_some_iff.mp h
      rw [pullWithin, pullParts_of_findPart? (fun n w r => ih n) hFound]
  | seek part start next ihPart ihNext =>
      obtain ⟨⟨⟨i, rest, n⟩, w'⟩, hFound, hNext⟩ := Option.bind_eq_some_iff.mp h
      rw [pullWithin, pullParts_of_findPart? (fun n w r => ihPart n) hFound]
      exact ihNext i hNext

/-- A joined search is pulled as its first part until that has ended. -/
theorem pull?_append (s t : Search) (w : World σ) :
    (s.append t).pull? limit o w =
      (s.pull? limit o w).bind fun
        | (.item i rest, w) => some (.item i (rest.append t), w)
        | (.ended, w) => t.pull? limit o w := by
  induction s generalizing w with
  | done => rfl
  | emit item rest _ => rfl
  | note m rest ih => exact ih (w.mark m)
  | delay rest ih => exact ih () w
  | ask q next ih => exact ih _ _
  | forever part start _ =>
      -- An endless supply has an item or no end within the limit; what is joined to it is never begun.
      rw [append, pull?, Option.bind_map]
      cases findPart? (fun n w => (part n).pull? limit o w) limit start w with
      | none => rfl
      | some found => simp [append_assoc, append]
  | seek part start next _ ih =>
      rw [append, pull?, pull?, Option.bind_assoc]
      exact congrArg _ (funext fun found => ih found.1.1 found.2)

/-- The items of the first `n` pulls and the world after them, if all these pulls come to an end. -/
def pulls? (limit : Nat) (o : Oracle σ) : Nat → Search → World σ → Option (List Item × World σ)
  | 0, _, w => some ([], w)
  | n + 1, s, w =>
    (s.pull? limit o w).bind fun
      | (.item i rest, w) => (pulls? limit o n rest w).map fun (items, w) => (i :: items, w)
      | (.ended, w) => some ([], w)

theorem pullsTo_of_pulls? {n : Nat} {r : List Item × World σ} (h : s.pulls? patience o n w = some r) :
    s.pullsTo o n w = r := by
  induction n generalizing s w r with
  | zero => exact Option.some.inj h
  | succ n ih =>
      obtain ⟨pulled, hPull, hRest⟩ := Option.bind_eq_some_iff.mp h
      rw [pullsTo, pull, pullWithin_of_pull? hPull]
      split at hRest
      · obtain ⟨⟨items, w'⟩, hItems, rfl⟩ := Option.map_eq_some_iff.mp hRest
        simp only [ih hItems]
      · exact Option.some.inj hRest

/-! ### One search after the other -/

/-- The searches of a list, joined; each but the first is begun when those before it have ended. -/
def chain : List Search → Search
  | [] => .done
  | [s] => s
  | s :: next :: rest => s.append (.delay fun _ => chain (next :: rest))

/-- The next item of the first search that has one, and what is left of that search and those after it. -/
def pullTurn? (limit : Nat) (o : Oracle σ) :
    List Search → World σ → Option (Option (Item × List Search) × World σ)
  | [], w => some (none, w)
  | s :: rest, w =>
    (s.pull? limit o w).bind fun
      | (.item i s', w) => some (some (i, s' :: rest), w)
      | (.ended, w) => pullTurn? limit o rest w

theorem pull?_chain (searches : List Search) (w : World σ) :
    (chain searches).pull? limit o w =
      (pullTurn? limit o searches w).map fun
        | (some (i, left), w) => (.item i (chain left), w)
        | (none, w) => (.ended, w) := by
  induction searches generalizing w with
  | nil => rfl
  | cons s rest ih =>
      cases rest with
      | nil =>
          rw [chain, pullTurn?, Option.map_bind]
          cases s.pull? limit o w with
          | none => rfl
          | some pulled =>
              obtain ⟨⟨i, s'⟩ | _, w'⟩ := pulled
              · rfl
              · rfl
      | cons s' rest =>
          rw [chain, pull?_append, pullTurn?, Option.map_bind]
          cases s.pull? limit o w with
          | none => rfl
          | some pulled =>
              obtain ⟨⟨i, left⟩ | _, w'⟩ := pulled
              · rfl
              · exact ih w'

/-- The items of the first `n` pulls from the searches of a list, taken in turn. -/
def turns? (limit : Nat) (o : Oracle σ) : Nat → List Search → World σ → Option (List Item × World σ)
  | 0, _, w => some ([], w)
  | n + 1, searches, w =>
    (pullTurn? limit o searches w).bind fun
      | (some (i, left), w) => (turns? limit o n left w).map fun (items, w) => (i :: items, w)
      | (none, w) => some ([], w)

theorem pulls?_chain (n : Nat) (searches : List Search) (w : World σ) :
    (chain searches).pulls? limit o n w = turns? limit o n searches w := by
  induction n generalizing searches w with
  | zero => rfl
  | succ n ih =>
      rw [pulls?, pull?_chain, turns?, Option.bind_map]
      refine congrArg _ (funext fun taken => ?_)
      obtain ⟨_ | ⟨i, left⟩, w'⟩ := taken
      · rfl
      · exact congrArg (Option.map _) (ih left w')

end PageLogic.Search
