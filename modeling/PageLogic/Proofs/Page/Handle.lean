import PageLogic.Page
/-!
Handles and what they name. A handle that a page issued is read back as the generation and the place
it was made from, so that different places have different handles.
-/
namespace PageLogic

namespace Text

theorem digits?_toDigits (n : Nat) : digits? (Nat.toDigits 10 n) = some n := by
  have hAll : (Nat.toDigits 10 n).all Char.isDigit = true :=
    List.all_eq_true.mpr fun c hc => Nat.isDigit_of_mem_toDigits (by decide) (by decide) hc
  have hNil : (Nat.toDigits 10 n).isEmpty = false := by simp [Nat.toDigits_ne_nil]
  simp only [digits?, hAll, hNil, Bool.not_true, Bool.or_self, Bool.false_eq_true, ↓reduceIte,
    Option.some.injEq]
  rw [← Nat.ofDigitChars_eq_foldl, Nat.ofDigitChars_ten_toDigits]

/-- A number is read back from its digits, if it is below the limit. -/
theorem natBelow?_toDigits (limit n : Nat) :
    natBelow? limit (Nat.toDigits 10 n) = if n < limit then some n else none := by
  have hPlus : ∀ rest, Nat.toDigits 10 n ≠ '+' :: rest := by
    intro rest h
    have hDigit : '+'.isDigit = true :=
      Nat.isDigit_of_mem_toDigits (b := 10) (n := n) (by decide) (by decide)
        (h ▸ List.mem_cons_self)
    exact absurd hDigit (by decide)
  unfold natBelow?
  split
  · rename_i rest h
    exact absurd h (hPlus rest)
  · rw [digits?_toDigits]
    rfl

theorem cutAt_append {p : Char → Bool} {before : List Char} (hBefore : ∀ c ∈ before, p c = false)
    {c : Char} (hc : p c = true) (behind : List Char) :
    cutAt p (before ++ c :: behind) = some (before, behind) := by
  induction before with
  | nil => simp [cutAt, hc]
  | cons d before ih =>
      obtain ⟨hd, hBefore⟩ := List.forall_mem_cons.mp hBefore
      simp [cutAt, hd, ih hBefore]

theorem eq_append_of_cutAt {p : Char → Bool} {cs before behind : List Char}
    (h : cutAt p cs = some (before, behind)) : ∃ c, p c = true ∧ cs = before ++ c :: behind := by
  induction cs generalizing before with
  | nil => cases h
  | cons c rest ih =>
      unfold cutAt at h
      split at h
      · next hc =>
          cases h
          exact ⟨c, hc, rfl⟩
      · obtain ⟨⟨front, behind'⟩, hFront, hEq⟩ := Option.map_eq_some_iff.mp h
        cases hEq
        obtain ⟨d, hd, rfl⟩ := ih hFront
        exact ⟨d, hd, rfl⟩

end Text

namespace Page

/-- The handle of a place in a generation. -/
def handleOf (generation index : Nat) : Handle :=
  ⟨"node-" ++ toString generation ++ "-" ++ toString index⟩

/-- A handle that the page can have issued, now or before another document was loaded. -/
def Issued (p : Page) (e : Handle) : Prop :=
  ∃ generation ≤ p.generation, ∃ index, e = handleOf generation index

theorem issued_handle (p : Page) (index : Nat) : p.Issued (p.handle index) :=
  ⟨p.generation, Nat.le_refl _, index, rfl⟩

theorem toList_handleOf (generation index : Nat) :
    (handleOf generation index).id.toList =
      "node-".toList ++ (Nat.toDigits 10 generation ++ '-' :: Nat.toDigits 10 index) := by
  simp [handleOf]

/-- The digits of a number end where a hyphen stands. -/
theorem cutAt_digits (n : Nat) (behind : List Char) :
    Text.cutAt (· == '-') (Nat.toDigits 10 n ++ '-' :: behind) =
      some (Nat.toDigits 10 n, behind) := by
  refine Text.cutAt_append (p := (· == '-')) (fun c hc => ?_) (beq_self_eq_true '-') behind
  have hDigit := Nat.isDigit_of_mem_toDigits (by decide) (by decide) hc
  rw [beq_eq_false_iff_ne]
  rintro rfl
  exact absurd hDigit (by decide)

/-- A handle names the generation and the place it was made from, if they are numbers of 64 bits. -/
theorem parseHandle_handleOf (generation index : Nat) :
    parseHandle (handleOf generation index) =
      if generation < Word.limit ∧ index < Word.limit then some (generation, index) else none := by
  unfold parseHandle
  rw [toList_handleOf, Text.after?_eq_some.mpr rfl]
  simp only [Option.bind_eq_bind, Option.bind_some, cutAt_digits, Text.natBelow?_toDigits]
  by_cases hGeneration : generation < Word.limit <;> by_cases hIndex : index < Word.limit <;>
    simp [hGeneration, hIndex]

theorem lt_limit_of_parseHandle {generation index : Nat} {place : Nat × Nat}
    (h : parseHandle (handleOf generation index) = some place) :
    generation < Word.limit ∧ index < Word.limit := by
  rw [parseHandle_handleOf] at h
  split at h
  · assumption
  · cases h

theorem toDigits_injective {m n : Nat} (h : Nat.toDigits 10 m = Nat.toDigits 10 n) : m = n := by
  rw [← Nat.ofDigitChars_ten_toDigits (n := m), h, Nat.ofDigitChars_ten_toDigits]

/-- Different places have different handles, and so have the places of different generations. -/
theorem handleOf_injective₂ {generation generation' i j : Nat}
    (h : handleOf generation i = handleOf generation' j) : generation = generation' ∧ i = j := by
  have hList := congrArg (fun e => e.id.toList) h
  simp only [toList_handleOf, List.append_cancel_left_eq] at hList
  have hCut := congrArg (Text.cutAt (· == '-')) hList
  rw [cutAt_digits, cutAt_digits, Option.some.injEq, Prod.mk.injEq] at hCut
  exact ⟨toDigits_injective hCut.1, toDigits_injective hCut.2⟩

theorem handleOf_injective {generation i j : Nat}
    (h : handleOf generation i = handleOf generation j) : i = j :=
  (handleOf_injective₂ h).2

/-- An issued handle that names a place of the present generation is the handle of that place. -/
theorem Issued.eq_handle {p : Page} {e : Handle} (h : p.Issued e) {index : Nat}
    (hParse : parseHandle e = some (p.generation, index)) : e = p.handle index := by
  obtain ⟨generation, _, i, rfl⟩ := h
  rw [parseHandle_handleOf] at hParse
  split at hParse
  · obtain ⟨rfl, rfl⟩ := Prod.mk.inj (Option.some.inj hParse)
    rfl
  · cases hParse

/-! ### The numbers in the text of a handle -/

/-- The texts of the generation and of the place in a handle that is made like those of pages. -/
def numerals (e : Handle) : Option (List Char × List Char) :=
  (Text.after? "node-".toList e.id.toList).bind (Text.cutAt (· == '-'))

theorem numerals_handleOf (generation index : Nat) :
    numerals (handleOf generation index) =
      some (Nat.toDigits 10 generation, Nat.toDigits 10 index) := by
  rw [numerals, toList_handleOf, Text.after?_eq_some.mpr rfl]
  exact cutAt_digits generation _

theorem toList_of_numerals {e : Handle} {a b : List Char} (h : numerals e = some (a, b)) :
    e.id.toList = "node-".toList ++ (a ++ '-' :: b) := by
  obtain ⟨rest, hRest, hCut⟩ := Option.bind_eq_some_iff.mp h
  obtain ⟨c, hc, rfl⟩ := Text.eq_append_of_cutAt hCut
  obtain rfl := beq_iff_eq.mp hc
  exact Text.after?_eq_some.mp hRest

theorem parseHandle_eq_some_iff {e : Handle} {generation index : Nat} :
    parseHandle e = some (generation, index) ↔
      ∃ a b, numerals e = some (a, b) ∧ Text.natBelow? Word.limit a = some generation ∧
        Text.natBelow? Word.limit b = some index := by
  have hParse : parseHandle e = (numerals e).bind fun texts =>
      (Text.natBelow? Word.limit texts.1).bind fun generation =>
        (Text.natBelow? Word.limit texts.2).bind fun index => some (generation, index) := by
    rw [numerals, Option.bind_assoc]
    rfl
  rw [hParse]
  simp [Option.bind_eq_some_iff]

end Page

end PageLogic
