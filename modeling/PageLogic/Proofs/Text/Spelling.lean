import PageLogic.Proofs.Page.Handle
/-!
Spellings of whole numbers. A number is read back from its digits, and also with zeros or a plus sign
in front of them. Of all texts that are read as one number, one is bare: the text that it prints as.
-/
namespace PageLogic.Text

variable {cs : List Char} {n limit : Nat}

/-- Nothing stands in front of the digits that could be left out: no plus sign, no zero in front of
other digits, and no minus sign in front of a zero. -/
def isBare : List Char → Bool
  | '+' :: _ => false
  | '-' :: '0' :: _ => false
  | '0' :: _ :: _ => false
  | _ => true

/-! ### Numbers print bare -/

theorem toDigits_ne_cons {c : Char} (hc : c.isDigit = false) (rest : List Char) :
    Nat.toDigits 10 n ≠ c :: rest := by
  intro h
  have hDigit : c.isDigit = true :=
    Nat.isDigit_of_mem_toDigits (b := 10) (n := n) (by decide) (by decide) (h ▸ List.mem_cons_self)
  simp [hc] at hDigit

/-- Only the digits of zero start with a zero. -/
theorem eq_zero_of_toDigits_eq_cons {rest : List Char} (h : Nat.toDigits 10 n = '0' :: rest) :
    n = 0 := by
  induction n using Nat.strongRecOn generalizing rest with
  | ind n ih =>
      rcases Nat.lt_or_ge n 10 with hLt | hGe
      · rw [Nat.toDigits_of_lt_base hLt] at h
        have hDigit : n.digitChar.toNat = '0'.toNat := congrArg Char.toNat (List.cons.inj h).1
        rw [Nat.toNat_digitChar_of_lt_ten hLt] at hDigit
        simpa using hDigit
      · rw [Nat.toDigits_of_base_le (by decide) hGe] at h
        obtain ⟨c, front, hFront⟩ := List.exists_cons_of_ne_nil (Nat.toDigits_ne_nil (n := n / 10))
        rw [hFront, List.cons_append] at h
        obtain ⟨rfl, _⟩ := List.cons.inj h
        -- The digits in front are those of a number that is not zero.
        have hZero := ih (n / 10) (by omega) hFront
        omega

theorem isBare_toDigits (n : Nat) : isBare (Nat.toDigits 10 n) = true := by
  unfold isBare
  split
  · next h => exact absurd h (toDigits_ne_cons (by decide) _)
  · next h => exact absurd h (toDigits_ne_cons (by decide) _)
  · next h =>
      obtain rfl := eq_zero_of_toDigits_eq_cons h
      cases h
  · rfl

theorem toList_toString_natCast (n : Nat) : (toString (n : Int)).toList = Nat.toDigits 10 n := by
  simp [Int.repr]

theorem toList_toString_negSucc (n : Nat) :
    (toString (Int.negSucc n)).toList = '-' :: Nat.toDigits 10 (n + 1) := by
  simp [Int.repr]

theorem isBare_toString (n : Int) : isBare (toString n).toList = true := by
  cases n with
  | ofNat n => exact toList_toString_natCast n ▸ isBare_toDigits n
  | negSucc n =>
      rw [toList_toString_negSucc]
      unfold isBare
      split
      · next h => cases h
      · next h =>
          have hZero := eq_zero_of_toDigits_eq_cons (List.cons.inj h).2
          omega
      · next h => cases h
      · rfl

/-- A number is read back from how it prints. -/
theorem intWithin?_toString {limit : Nat} {i : Int} (hLow : -(limit : Int) ≤ i) (hHigh : i < limit) :
    intWithin? limit (toString i).toList = some i := by
  cases i with
  | ofNat n =>
      have hPrinted : (toString (Int.ofNat n)).toList = Nat.toDigits 10 n := toList_toString_natCast n
      have hLt : n < limit := Int.ofNat_lt.mp hHigh
      rw [hPrinted, intWithin?]
      · simp [digits?_toDigits, hLt]
      · exact toDigits_ne_cons (by decide)
      · exact toDigits_ne_cons (by decide)
  | negSucc n =>
      have hLe : n + 1 ≤ limit := by omega
      rw [toList_toString_negSucc]
      simp [intWithin?, digits?_toDigits, hLe, Int.negSucc_eq]

/-! ### What is read and bare is as it prints -/

theorem toDigits_of_isDigit {c : Char} (h : c.isDigit = true) :
    c.toNat - '0'.toNat < 10 ∧ Nat.toDigits 10 (c.toNat - '0'.toNat) = [c] := by
  have hRange : 48 ≤ c.toNat ∧ c.toNat ≤ 57 := by
    simp only [Char.isDigit, Bool.and_eq_true, decide_eq_true_eq] at h
    exact h
  have hLt : c.toNat - '0'.toNat < 10 := by
    show c.toNat - 48 < 10
    omega
  refine ⟨hLt, ?_⟩
  rw [Nat.toDigits_of_lt_base hLt]
  congr 1
  apply Char.toNat_inj.mp
  rw [Nat.toNat_digitChar_of_lt_ten hLt]
  show 48 + (c.toNat - 48) = c.toNat
  omega

/-- Digits that follow those of a number that is not zero are the digits of the number read on. -/
theorem toDigits_append_eq_toDigits_foldl {front : Nat} (hFront : 0 < front)
    (hDigits : cs.all Char.isDigit = true) :
    Nat.toDigits 10 front ++ cs =
      Nat.toDigits 10 (cs.foldl (fun n c => 10 * n + (c.toNat - '0'.toNat)) front) := by
  induction cs generalizing front with
  | nil => simp
  | cons c rest ih =>
      simp only [List.all_cons, Bool.and_eq_true] at hDigits
      obtain ⟨hLt, hDigit⟩ := toDigits_of_isDigit hDigits.1
      have hNext := Nat.toDigits_append_toDigits (by decide : 1 < 10) hFront hLt
      rw [hDigit] at hNext
      rw [List.foldl_cons, ← ih (by omega) hDigits.2, ← hNext, List.append_assoc,
        List.singleton_append]

/-- Digits without a zero in front are those of the number that is read. -/
theorem eq_toDigits_of_digits? (hZero : ∀ rest, cs = '0' :: rest → rest = [])
    (h : digits? cs = some n) : cs = Nat.toDigits 10 n := by
  unfold digits? at h
  split at h
  · cases h
  · next hDigits =>
      simp only [Bool.or_eq_true, Bool.not_eq_true', not_or, Bool.not_eq_true,
        Bool.not_eq_false] at hDigits
      obtain rfl := Option.some.inj h
      cases cs with
      | nil => simp at hDigits
      | cons c rest =>
          simp only [List.all_cons, Bool.and_eq_true] at hDigits
          obtain ⟨_, hDigit⟩ := toDigits_of_isDigit hDigits.2.1
          rcases Nat.eq_zero_or_pos (c.toNat - '0'.toNat) with hNone | hPos
          · rw [hNone] at hDigit
            obtain rfl : '0' = c := by simpa using hDigit
            rw [hZero rest rfl]
            rfl
          · rw [List.foldl_cons]
            have hRead := toDigits_append_eq_toDigits_foldl hPos hDigits.2.2
            rw [hDigit] at hRead
            simpa using hRead

theorem eq_nil_of_isBare (hBare : isBare cs = true) (rest : List Char) (h : cs = '0' :: rest) :
    rest = [] := by
  subst h
  cases rest with
  | nil => rfl
  | cons => cases hBare

/-- A text that is read as a number is bare if, and only if, it is how the number prints. -/
theorem isBare_iff_eq_toDigits (h : natBelow? limit cs = some n) :
    isBare cs = true ↔ cs = Nat.toDigits 10 n := by
  constructor
  · intro hBare
    unfold natBelow? at h
    obtain ⟨m, hDigits, hBelow⟩ := Option.bind_eq_some_iff.mp h
    split at hBelow
    · obtain rfl := Option.some.inj hBelow
      split at hDigits
      · cases hBare
      · exact eq_toDigits_of_digits? (eq_nil_of_isBare hBare) hDigits
    · cases hBelow
  · rintro rfl
    exact isBare_toDigits n

/-! ### Numbers with a sign -/

/-- The text is the number in decimal digits, with a sign in front or without. -/
def Spells (cs : List Char) (i : Int) : Prop :=
  ∃ digits m, digits? digits = some m ∧
    ((cs = digits ∨ cs = '+' :: digits) ∧ i = m ∨ cs = '-' :: digits ∧ i = -(m : Int))

theorem head_isDigit_of_digits? {c : Char} {rest : List Char} (h : digits? (c :: rest) = some n) :
    c.isDigit = true := by
  unfold digits? at h
  split at h
  · cases h
  · next hDigits =>
      simp only [List.isEmpty_cons, List.all_cons, Bool.false_or, Bool.not_eq_true', Bool.not_eq_false,
        Bool.and_eq_true] at hDigits
      exact hDigits.1

/-- A text that is read as a number has a plus sign, a minus sign or none. -/
theorem intWithin?_cases {i : Int} (h : intWithin? limit cs = some i) :
    (∃ rest m, cs = '+' :: rest ∧ digits? rest = some m ∧ i = m ∧ m < limit) ∨
    (∃ rest m, cs = '-' :: rest ∧ digits? rest = some m ∧ i = -(m : Int) ∧ m ≤ limit) ∨
    ∃ m : Nat, digits? cs = some m ∧ i = m ∧ m < limit := by
  unfold intWithin? at h
  split at h
  next negative digits hSign =>
  obtain ⟨m, hDigits, hBelow⟩ := Option.bind_eq_some_iff.mp h
  split at hSign <;> cases hSign <;> simp only [Bool.false_eq_true, ↓reduceIte] at hBelow <;>
    split at hBelow <;> cases hBelow
  · exact .inl ⟨_, m, rfl, hDigits, rfl, by assumption⟩
  · exact .inr (.inl ⟨_, m, rfl, hDigits, rfl, by assumption⟩)
  · exact .inr (.inr ⟨m, hDigits, rfl, by assumption⟩)

/-- A text is read as a number exactly if it spells the number, and the number is within the limits. -/
theorem intWithin?_eq_some_iff (hLimit : 0 < limit) {i : Int} :
    intWithin? limit cs = some i ↔ Spells cs i ∧ -(limit : Int) ≤ i ∧ i < limit := by
  constructor
  · intro h
    rcases intWithin?_cases h with ⟨digits, m, hText, hDigits, rfl, hBelow⟩ |
      ⟨digits, m, hText, hDigits, rfl, hBelow⟩ | ⟨m, hDigits, rfl, hBelow⟩
    · exact ⟨⟨digits, m, hDigits, .inl ⟨.inr hText, rfl⟩⟩, by omega, by omega⟩
    · exact ⟨⟨digits, m, hDigits, .inr ⟨hText, rfl⟩⟩, by omega, by omega⟩
    · exact ⟨⟨cs, m, hDigits, .inl ⟨.inl rfl, rfl⟩⟩, by omega, by omega⟩
  · rintro ⟨⟨digits, m, hDigits, ⟨rfl | rfl, rfl⟩ | ⟨rfl, rfl⟩⟩, hLow, hHigh⟩
    · have hBelow : m < limit := by omega
      have hBare (sign : Char) (hSign : sign.isDigit = false) (rest : List Char) : cs ≠ sign :: rest := by
        rintro rfl
        rw [head_isDigit_of_digits? hDigits] at hSign
        cases hSign
      rw [intWithin?]
      · simp [hDigits, hBelow]
      · exact hBare '+' (by decide)
      · exact hBare '-' (by decide)
    · have hBelow : m < limit := by omega
      simp [intWithin?, hDigits, hBelow]
    · have hBelow : m ≤ limit := by omega
      simp [intWithin?, hDigits, hBelow]

/-- A text that is read as a number with a sign is bare if, and only if, it is how the number
prints. -/
theorem isBare_iff_eq_toString {n : Int} (h : intWithin? limit cs = some n) :
    isBare cs = true ↔ cs = (toString n).toList := by
  constructor
  · intro hBare
    rcases intWithin?_cases h with ⟨rest, m, rfl, -⟩ | ⟨rest, m, rfl, hDigits, rfl, -⟩ |
      ⟨m, hDigits, rfl, -⟩
    · cases hBare
    · have hZero (front : List Char) : rest ≠ '0' :: front := by
        rintro rfl
        cases hBare
      obtain rfl := eq_toDigits_of_digits? (fun front hFront => absurd hFront (hZero front)) hDigits
      cases m with
      | zero => exact absurd rfl (hZero [])
      | succ m => exact (toList_toString_negSucc m).symm
    · rw [toList_toString_natCast]
      exact eq_toDigits_of_digits? (eq_nil_of_isBare hBare) hDigits
  · rintro rfl
    exact isBare_toString n

end PageLogic.Text
