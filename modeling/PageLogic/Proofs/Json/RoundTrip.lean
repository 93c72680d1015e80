import PageLogic.Proofs.Text.Spelling
import PageLogic.Json.Written
import Mathlib.Data.List.Forall2
import Mathlib.Data.List.Nodup
/-!
What is written reads back. A string reads as its characters, a number as its digits, and an object
as its fields in their order, on whatever level of indentation it stands and whatever follows.
-/
namespace PageLogic.Json

open Written

variable {j : Json} {w : Written} {cs : List Char}

/-! ### Strings -/

/-- How a character of a string is read back: by its number, if it was written by its number. -/
def pieceOf (c : Char) : Piece :=
  if ['\\', 'u'].isPrefixOf (escapeChar c) then .unit c.toNat else .char c

def piecesOf (s : String) : List Piece :=
  s.toList.map pieceOf

theorem hexDigit?_digitChar {d : Nat} (h : d < 16) : hexDigit? d.digitChar = some d := by
  revert d
  decide

/-- The two hexadecimal digits of a small number. -/
theorem unit?_digitChar {n : Nat} (h : n < 256) :
    unit? '0' '0' (n / 16).digitChar (n % 16).digitChar = some n := by
  have hZero : hexDigit? '0' = some 0 := rfl
  have hHigh : hexDigit? (n / 16).digitChar = some (n / 16) := hexDigit?_digitChar (by omega)
  have hLow : hexDigit? (n % 16).digitChar = some (n % 16) := hexDigit?_digitChar (by omega)
  simp only [unit?, hZero, hHigh, hLow, Option.bind_eq_bind, Option.bind_some, Option.some.injEq]
  omega

/-- A character stands for itself, or behind a backslash it has a letter or its number. -/
theorem escapeChar_cases (c : Char) :
    (escapeChar c = [c] ∧ c ≠ '"' ∧ c ≠ '\\' ∧ ¬ c.toNat < 0x20) ∨
    (∃ letter, escapeChar c = ['\\', letter] ∧ escaped? letter = some c) ∨
    (escapeChar c = '\\' :: 'u' :: '0' :: '0' ::
        [(c.toNat / 16).digitChar, (c.toNat % 16).digitChar] ∧ c.toNat < 0x20) := by
  unfold escapeChar
  split
  case h_8 _ hQuote hBackslash _ _ _ _ _ =>
    split
    · next hSmall => exact .inr (.inr ⟨rfl, hSmall⟩)
    · next hLarge => exact .inl ⟨rfl, hQuote, hBackslash, hLarge⟩
  all_goals exact .inr (.inl ⟨_, rfl, rfl⟩)

theorem escaped?_ne_u {letter c : Char} (h : escaped? letter = some c) : letter ≠ 'u' := by
  rintro rfl
  cases h

theorem pieces_escapeChar (c : Char) (rest : List Char) :
    pieces (escapeChar c ++ rest) = piece (pieceOf c) (pieces rest) := by
  rcases escapeChar_cases c with ⟨hSelf, hQuote, hSlash, hLarge⟩ | ⟨letter, hLetter, hEscaped⟩ |
      ⟨hNumber, hSmall⟩
  · have hPiece : pieceOf c = .char c := by simp [pieceOf, hSelf]
    rw [hSelf, hPiece, List.singleton_append, pieces, if_neg hLarge]
    · exact hQuote
    · exact fun _ _ _ _ _ h _ => hSlash h
    · exact fun _ _ h _ => hSlash h
  · have hLetterNe := (escaped?_ne_u hEscaped).symm
    have hPiece : pieceOf c = .char c := by simp [pieceOf, hLetter, hLetterNe]
    rw [hLetter, hPiece, List.cons_append, List.singleton_append, pieces, hEscaped]
    exact fun _ _ _ _ _ h => absurd h.symm hLetterNe
  · have hUnit := unit?_digitChar (n := c.toNat) (by omega)
    have hPiece : pieceOf c = .unit c.toNat := by simp [pieceOf, hNumber]
    rw [hNumber, hPiece]
    simp only [List.cons_append, List.nil_append, pieces, hUnit]

theorem pieceOf_cases (c : Char) :
    pieceOf c = .char c ∨ pieceOf c = .unit c.toNat ∧ c.toNat < 0x20 := by
  rcases escapeChar_cases c with ⟨hSelf, _⟩ | ⟨letter, hLetter, hEscaped⟩ | ⟨hNumber, hSmall⟩
  · simp [pieceOf, hSelf]
  · simp [pieceOf, hLetter, (escaped?_ne_u hEscaped).symm]
  · simp [pieceOf, hNumber, hSmall]

/-- Below the halves of pairs, a number is a character. -/
theorem textOf?_unit {n : Nat} (h : n < 0xD800) (rest : List Piece) :
    textOf? (.unit n :: rest) = (textOf? rest).map (Char.ofNat n :: ·) := by
  have hHigh : isHighHalf n = false := by simp [isHighHalf, Nat.not_le_of_lt h]
  have hLow : isLowHalf n = false := by
    have hBelow : ¬ 0xDC00 ≤ n := by omega
    simp [isLowHalf, hBelow]
  rcases rest with _ | ⟨_ | l, rest⟩ <;> simp [textOf?, hHigh, hLow]

theorem textOf?_piecesOf (s : String) : textOf? (piecesOf s) = some s.toList := by
  unfold piecesOf
  induction s.toList with
  | nil => rfl
  | cons c cs ih =>
      rw [List.map_cons]
      rcases pieceOf_cases c with hPiece | ⟨hPiece, hSmall⟩
      · rw [hPiece, textOf?, ih, Option.map_some]
      · rw [hPiece, textOf?_unit (by omega), ih, Option.map_some, Char.ofNat_toNat]

/-- A string reads as its pieces, up to the quote that ends it. -/
theorem pieces_writeString (s : String) (rest : List Char) :
    pieces (s.toList.flatMap escapeChar ++ '"' :: rest) = some (piecesOf s, rest) := by
  unfold piecesOf
  induction s.toList with
  | nil => rw [List.flatMap_nil, List.nil_append, pieces, List.map_nil]
  | cons c cs ih =>
      rw [List.flatMap_cons, List.append_assoc, pieces_escapeChar, ih]
      rfl

theorem string?_piecesOf (s : String) : (Written.string (piecesOf s)).string? = some s := by
  simp [Written.string?, textOf?_piecesOf]

/-! ### Numbers -/

/-- What follows does not go on with a number. -/
def EndsNumber (cs : List Char) : Prop :=
  ∀ c ∈ cs.head?, c.isDigit = false ∧ c ≠ '.' ∧ c ≠ 'e' ∧ c ≠ 'E'

namespace Numeral

/-- The digits of a whole number without sign. -/
def ofNat (n : Nat) : Numeral :=
  ⟨false, Nat.toDigits 10 n, [], none⟩

/-- The digits of a whole number, and its sign if it is negative. -/
def ofInt : Int → Numeral
  | .ofNat n => .ofNat n
  | .negSucc n => ⟨true, Nat.toDigits 10 (n + 1), [], none⟩

theorem natOf_toDigits (n : Nat) : natOf (Nat.toDigits 10 n) = n := by
  rw [natOf, ← Nat.ofDigitChars_eq_foldl, Nat.ofDigitChars_ten_toDigits]

theorem nat?_ofNat (n : Nat) :
    (Numeral.ofNat n).nat? = if n < Word.limit then some n else none := by
  simp [nat?, ofNat, natOf_toDigits]

end Numeral

theorem takeWhile_dropWhile_append {p : Char → Bool} {front rest : List Char}
    (hFront : ∀ c ∈ front, p c = true) (hRest : ∀ c ∈ rest.head?, p c = false) :
    (front ++ rest).takeWhile p = front ∧ (front ++ rest).dropWhile p = rest := by
  have hTake : rest.takeWhile p = [] ∧ rest.dropWhile p = rest := by
    cases rest with
    | nil => simp
    | cons c rest => simp [hRest c (by simp)]
  rw [List.takeWhile_append_of_pos hFront, List.dropWhile_append_of_pos hFront, hTake.1, hTake.2,
    List.append_nil]
  exact ⟨rfl, rfl⟩

theorem exists_toDigits_eq_cons (n : Nat) :
    ∃ c front, Nat.toDigits 10 n = c :: front ∧ c.isDigit = true ∧
      ∀ d ∈ front, d.isDigit = true := by
  obtain ⟨c, front, hFront⟩ := List.exists_cons_of_ne_nil (Nat.toDigits_ne_nil (n := n) (b := 10))
  have hDigits : ∀ d ∈ c :: front, d.isDigit = true := by
    intro d hd
    rw [← hFront] at hd
    exact Nat.isDigit_of_mem_toDigits (by decide) (by decide) hd
  exact ⟨c, front, hFront, List.forall_mem_cons.mp hDigits⟩

theorem wholeDigits_toDigits (n : Nat) {rest : List Char} (hRest : EndsNumber rest) :
    wholeDigits (Nat.toDigits 10 n ++ rest) = some (Nat.toDigits 10 n, rest) := by
  obtain ⟨c, front, hFront, hc, hDigits⟩ := exists_toDigits_eq_cons n
  rcases eq_or_ne c '0' with rfl | hZero
  · obtain rfl := Text.eq_zero_of_toDigits_eq_cons hFront
    rfl
  · obtain ⟨hTake, hDrop⟩ := takeWhile_dropWhile_append hDigits fun c hc => (hRest c hc).1
    rw [hFront, List.cons_append, wholeDigits]
    · rw [if_pos hc, hTake, hDrop]
    · exact hZero

theorem fractionDigits_of_endsNumber {rest : List Char} (hRest : EndsNumber rest) :
    fractionDigits rest = some ([], rest) := by
  unfold fractionDigits
  split
  · next rest => exact absurd rfl (hRest '.' (by simp)).2.1
  · rfl

theorem exponentDigits_of_endsNumber {rest : List Char} (hRest : EndsNumber rest) :
    exponentDigits rest = some (none, rest) := by
  cases rest with
  | nil => rfl
  | cons c rest =>
      obtain ⟨_, _, hLower, hUpper⟩ := hRest c (by simp)
      simp [exponentDigits, hLower, hUpper]

/-- A whole number without sign reads as its digits. -/
theorem numeral_toDigits (n : Nat) {rest : List Char} (hRest : EndsNumber rest) :
    numeral (Nat.toDigits 10 n ++ rest) = some (.ofNat n, rest) := by
  obtain ⟨c, front, hFront, hc, _⟩ := exists_toDigits_eq_cons n
  have hSign : c ≠ '-' := by
    rintro rfl
    cases hc
  have hWhole := wholeDigits_toDigits n hRest
  simp only [hFront, List.cons_append] at hWhole ⊢
  simp [numeral, hSign, hWhole, fractionDigits_of_endsNumber hRest,
    exponentDigits_of_endsNumber hRest, Numeral.ofNat, hFront]

/-- A whole number reads as its digits and its sign. -/
theorem numeral_toString (i : Int) {rest : List Char} (hRest : EndsNumber rest) :
    numeral ((toString i).toList ++ rest) = some (.ofInt i, rest) := by
  cases i with
  | ofNat n =>
      have hText : (toString (Int.ofNat n)).toList = Nat.toDigits 10 n := Text.toList_toString_natCast n
      rw [hText]
      exact numeral_toDigits n hRest
  | negSucc n =>
      rw [Text.toList_toString_negSucc]
      simp [numeral, wholeDigits_toDigits (n + 1) hRest, fractionDigits_of_endsNumber hRest,
        exponentDigits_of_endsNumber hRest, Numeral.ofInt]

/-! ### Blanks -/

theorem dropSpaces_cons_of_not_isSpace {c : Char} (hc : isSpace c = false) (cs : List Char) :
    dropSpaces (c :: cs) = c :: cs :=
  List.dropWhile_cons_of_neg (by simp [hc])

theorem dropSpaces_quote (cs : List Char) : dropSpaces ('"' :: cs) = '"' :: cs :=
  dropSpaces_cons_of_not_isSpace rfl cs

theorem dropSpaces_colon (cs : List Char) : dropSpaces (':' :: cs) = ':' :: cs :=
  dropSpaces_cons_of_not_isSpace rfl cs

/-- Nothing but blanks. -/
def IsBlank (cs : List Char) : Prop :=
  ∀ c ∈ cs, isSpace c = true

theorem dropSpaces_append {blanks : List Char} (h : IsBlank blanks) (cs : List Char) :
    dropSpaces (blanks ++ cs) = dropSpaces cs :=
  List.dropWhile_append_of_pos h

theorem isBlank_nil : IsBlank [] :=
  nofun

theorem isBlank_space : IsBlank [' '] := by
  simp [IsBlank, isSpace]

theorem isBlank_newLine (level : Nat) : IsBlank (newLine level) := by
  simp [IsBlank, newLine, isSpace]

/-- Blanks in front of a value are passed over. -/
theorem value_congr {cs ds : List Char} (h : dropSpaces cs = dropSpaces ds) (fuel : Nat) :
    value fuel cs = value fuel ds := by
  cases fuel with
  | zero => rfl
  | succ fuel => simp only [value, h]

theorem fields_congr {cs ds : List Char} (h : dropSpaces cs = dropSpaces ds) (fuel : Nat) :
    fields fuel cs = fields fuel ds := by
  cases fuel with
  | zero => rfl
  | succ fuel => simp only [fields, h]

theorem endsNumber_blank_append {blanks cs : List Char} (hBlank : IsBlank blanks) (h : EndsNumber cs) :
    EndsNumber (blanks ++ cs) := by
  cases blanks with
  | nil => exact h
  | cons c blanks =>
      intro d hd
      obtain rfl : c = d := by simpa using hd
      have hSpace := hBlank c List.mem_cons_self
      simp only [isSpace, Bool.or_eq_true, beq_iff_eq] at hSpace
      rcases hSpace with ((rfl | rfl) | rfl) | rfl <;> decide

/-! ### Values -/

/-- Whatever follows it, the text reads as this. -/
def Reads (cs : List Char) (w : Written) : Prop :=
  ∀ fuel rest, cs.length ≤ fuel → EndsNumber rest → value (fuel + 1) (cs ++ rest) = some (w, rest)

/-- However deep it is indented, and whatever follows, the value is read back as this. -/
def ReadsAs (j : Json) (w : Written) : Prop :=
  ∀ level, Reads (j.writePretty level) w

theorem Reads.value_append (h : Reads cs w) {more : List Char} {fuel : Nat} (hFuel : cs.length < fuel)
    (hMore : EndsNumber more) : value fuel (cs ++ more) = some (w, more) := by
  obtain ⟨fuel, rfl⟩ := Nat.exists_eq_succ_of_ne_zero (Nat.ne_zero_of_lt hFuel)
  exact h fuel more (Nat.le_of_lt_succ hFuel) hMore

theorem Reads.value_blank (h : Reads cs w) {blanks more : List Char} {fuel : Nat}
    (hBlank : IsBlank blanks) (hFuel : cs.length < fuel) (hMore : EndsNumber more) :
    value fuel (blanks ++ (cs ++ more)) = some (w, more) := by
  rw [value_congr (dropSpaces_append hBlank _), h.value_append hFuel hMore]

/-- The whole text reads as the value. -/
theorem Reads.parse? (h : Reads cs w) : Written.parse? cs = some w := by
  have hValue := h (2 * cs.length + 1) [] (by omega) (by simp [EndsNumber])
  rw [List.append_nil] at hValue
  simp [Written.parse?, hValue, dropSpaces]

theorem reads_null : Reads (write .null) .null := by
  intro fuel rest _ _
  simp [write, value, dropSpaces_cons_of_not_isSpace, isSpace]

theorem reads_bool (b : Bool) : Reads (write (.bool b)) (.bool b) := by
  intro fuel rest _ _
  cases b <;> simp [write, value, dropSpaces_cons_of_not_isSpace, isSpace]

theorem reads_string (s : String) : Reads (write (.string s)) (.string (piecesOf s)) := by
  intro fuel rest _ _
  simp [write, writeString, value, dropSpaces_cons_of_not_isSpace, isSpace, pieces_writeString]

/-- Digits and a minus sign begin nothing but a number. -/
theorem value_of_beginsNumber {c : Char} (hc : c.isDigit = true ∨ c = '-') (fuel : Nat)
    (cs : List Char) :
    value (fuel + 1) (c :: cs) = (numeral (c :: cs)).map fun (n, rest) => (.number n, rest) := by
  have hSpace : isSpace c = false := by
    rw [Bool.eq_false_iff]
    intro h
    simp only [isSpace, Bool.or_eq_true, beq_iff_eq] at h
    rcases h with ((rfl | rfl) | rfl) | rfl <;> revert hc <;> decide
  rw [value, dropSpaces_cons_of_not_isSpace hSpace]
  split
  case h_7 => rfl
  all_goals
    next h =>
      obtain ⟨rfl, _⟩ := List.cons.inj h
      exact absurd hc (by decide)

theorem reads_whole (i : Int) : Reads (write (.number (.whole i))) (.number (.ofInt i)) := by
  intro fuel rest _ hRest
  obtain ⟨c, front, hFront, hc⟩ :
      ∃ c front, (toString i).toList = c :: front ∧ (c.isDigit = true ∨ c = '-') := by
    cases i with
    | ofNat n =>
        obtain ⟨c, front, hFront, hc, _⟩ := exists_toDigits_eq_cons n
        exact ⟨c, front, (Text.toList_toString_natCast n).trans hFront, .inl hc⟩
    | negSucc n => exact ⟨'-', _, Text.toList_toString_negSucc n, .inr rfl⟩
  have hNumeral := numeral_toString i hRest
  simp only [write, writeNumber, hFront, List.cons_append] at hNumeral ⊢
  rw [value_of_beginsNumber hc, hNumeral, Option.map_some]

theorem readsAs_null : ReadsAs .null .null := fun level => by
  rw [writePretty]
  exact reads_null

theorem readsAs_bool (b : Bool) : ReadsAs (.bool b) (.bool b) := fun level => by
  rw [writePretty]
  exact reads_bool b

theorem readsAs_string (s : String) : ReadsAs (.string s) (.string (piecesOf s)) := fun level => by
  rw [writePretty]
  exact reads_string s

theorem readsAs_nat (n : Nat) : ReadsAs (.number (.whole n)) (.number (.ofNat n)) := fun level => by
  rw [writePretty]
  exact reads_whole n

/-! ### Objects -/

/-- An object of fields by name. -/
def Written.ofFields (fields : List (String × Written)) : Written :=
  .object (fields.map fun f => (piecesOf f.1, f.2))

/-- Fields one after the other. Blanks stand in front of every name and of every value. -/
def joinFields (front gap : List Char) : List (String × List Char) → List Char
  | [] => []
  | [f] => front ++ (writeString f.1 ++ ':' :: (gap ++ f.2))
  | f :: f' :: rest =>
    front ++ (writeString f.1 ++ ':' :: (gap ++ f.2)) ++ ',' :: joinFields front gap (f' :: rest)

theorem joinFields_cons_cons (front gap : List Char) (f f' : String × List Char)
    (rest : List (String × List Char)) :
    joinFields front gap (f :: f' :: rest) =
      front ++ (writeString f.1 ++ ':' :: (gap ++ f.2)) ++ ',' :: joinFields front gap (f' :: rest) :=
  rfl

/-- Fields of the same names, in each of which the text reads as the other. -/
def FieldsRead : List (String × List Char) → List (String × Written) → Prop :=
  List.Forall₂ fun f g => f.1 = g.1 ∧ Reads f.2 g.2

section

variable {front gap : List Char} (hFront : IsBlank front) (hGap : IsBlank gap)

include hFront hGap

/-- One field is read, and behind a comma the fields that follow. -/
theorem Reads.field_comma (h : Reads cs w) (k : String) {fuel : Nat} {more rest after : List Char}
    {gs : List (List Piece × Written)} (hFuel : cs.length < fuel) (hMore : EndsNumber more)
    (hComma : dropSpaces more = ',' :: rest) (hRest : fields fuel rest = some (gs, after)) :
    fields (fuel + 1) (front ++ (writeString k ++ ':' :: (gap ++ (cs ++ more)))) =
      some ((piecesOf k, w) :: gs, after) := by
  rw [fields, dropSpaces_append hFront]
  simp only [writeString, List.cons_append, List.append_assoc, List.nil_append, dropSpaces_quote,
    pieces_writeString, dropSpaces_colon, h.value_blank hGap hFuel hMore, hComma, hRest,
    Option.map_some]

/-- The last field is read, up to the brace behind it. -/
theorem Reads.field_close (h : Reads cs w) (k : String) {fuel : Nat} {more after : List Char}
    (hFuel : cs.length < fuel) (hMore : EndsNumber more) (hClose : dropSpaces more = '\x7d' :: after) :
    fields (fuel + 1) (front ++ (writeString k ++ ':' :: (gap ++ (cs ++ more)))) =
      some ([(piecesOf k, w)], after) := by
  rw [fields, dropSpaces_append hFront]
  simp only [writeString, List.cons_append, List.append_assoc, List.nil_append, dropSpaces_quote,
    pieces_writeString, dropSpaces_colon, h.value_blank hGap hFuel hMore, hClose]

/-- The text of fields reads as the fields, up to the brace behind them. -/
theorem FieldsRead.fields {f : String × List Char} {fs : List (String × List Char)}
    {gs : List (String × Written)} (h : FieldsRead (f :: fs) gs) {fuel : Nat} {rest after : List Char}
    (hFuel : (joinFields front gap (f :: fs)).length < fuel) (hRest : EndsNumber rest)
    (hClose : dropSpaces rest = '\x7d' :: after) :
    fields fuel (joinFields front gap (f :: fs) ++ rest) =
      some (gs.map fun g => (piecesOf g.1, g.2), after) := by
  induction fs generalizing f gs fuel with
  | nil =>
      obtain ⟨⟨k, w⟩, gs, ⟨rfl, hReads⟩, hTail, rfl⟩ := List.forall₂_cons_left_iff.mp h
      obtain rfl := List.forall₂_nil_left_iff.mp hTail
      obtain ⟨fuel, rfl⟩ := Nat.exists_eq_succ_of_ne_zero (Nat.ne_zero_of_lt hFuel)
      simp only [joinFields, List.length_append, List.length_cons] at hFuel
      have hEnough : f.2.length < fuel := by omega
      simp only [joinFields, List.append_assoc, List.cons_append]
      exact hReads.field_close hFront hGap f.1 hEnough hRest hClose
  | cons f' fs ih =>
      obtain ⟨⟨k, w⟩, gs, ⟨rfl, hReads⟩, hTail, rfl⟩ := List.forall₂_cons_left_iff.mp h
      obtain ⟨fuel, rfl⟩ := Nat.exists_eq_succ_of_ne_zero (Nat.ne_zero_of_lt hFuel)
      simp only [joinFields_cons_cons, List.length_append, List.length_cons] at hFuel
      have hEnough : f.2.length < fuel := by omega
      have hInside : (joinFields front gap (f' :: fs)).length < fuel := by omega
      simp only [joinFields_cons_cons, List.append_assoc, List.cons_append]
      exact hReads.field_comma hFront hGap f.1 hEnough (by simp [EndsNumber])
        (dropSpaces_cons_of_not_isSpace rfl _) (ih hTail hInside)

/-- An object reads as its fields. -/
theorem reads_object {fs : List (String × List Char)} {gs : List (String × Written)} {back : List Char}
    (hBack : IsBlank back) (h : FieldsRead fs gs) :
    Reads ('\x7b' :: (joinFields front gap fs ++ (back ++ ['\x7d']))) (.ofFields gs) := by
  intro fuel rest hFuel hRest
  have hClose : dropSpaces (back ++ '\x7d' :: rest) = '\x7d' :: rest := by
    rw [dropSpaces_append hBack, dropSpaces_cons_of_not_isSpace rfl]
  have hWritten : '\x7b' :: (joinFields front gap fs ++ (back ++ ['\x7d'])) ++ rest =
      '\x7b' :: (joinFields front gap fs ++ (back ++ '\x7d' :: rest)) := by
    simp
  rw [hWritten, value, dropSpaces_cons_of_not_isSpace rfl]
  cases fs with
  | nil =>
      obtain rfl := List.forall₂_nil_left_iff.mp h
      simp only [joinFields, List.nil_append, hClose]
      rfl
  | cons f fs =>
      have hInside : (joinFields front gap (f :: fs)).length < fuel := by
        simp only [List.length_append, List.length_cons] at hFuel
        omega
      have hFields := h.fields hFront hGap hInside
        (endsNumber_blank_append hBack (by simp [EndsNumber])) hClose
      -- The fields begin with a quote, so that the object is not the empty one.
      obtain ⟨cs, hQuote⟩ :
          ∃ cs, dropSpaces (joinFields front gap (f :: fs) ++ (back ++ '\x7d' :: rest)) = '"' :: cs := by
        cases fs <;> simp only [joinFields, List.append_assoc, dropSpaces_append hFront, writeString] <;>
          exact ⟨_, dropSpaces_cons_of_not_isSpace rfl _⟩
      have hOpen : dropSpaces ('"' :: cs) =
          dropSpaces (joinFields front gap (f :: fs) ++ (back ++ '\x7d' :: rest)) := by
        rw [hQuote, dropSpaces_cons_of_not_isSpace rfl]
      rw [← fields_congr hOpen] at hFields
      simp only [hQuote]
      show (Written.fields fuel ('"' :: cs)).map _ = _
      rw [hFields]
      rfl

end

/-- Fields of the same names, each of which reads as the other. -/
def FieldsReadAs : List (String × Json) → List (String × Written) → Prop :=
  List.Forall₂ fun f g => f.1 = g.1 ∧ f.2.ReadsAs g.2

theorem prettyFields_true_eq (level : Nat) (fs : List (String × Json)) :
    prettyFields level true fs =
      joinFields (newLine level) [' '] (fs.map fun f => (f.1, f.2.writePretty level)) := by
  induction fs with
  | nil => rfl
  | cons f fs ih =>
      cases fs with
      | nil => simp [prettyFields, joinFields]
      | cons f' fs =>
          have hNext : prettyFields level false (f' :: fs) =
              ',' :: prettyFields level true (f' :: fs) := by
            simp [prettyFields]
          rw [List.map_cons] at ih
          rw [List.map_cons, List.map_cons, joinFields_cons_cons, ← ih, prettyFields, hNext]
          simp

/-- An object reads as its fields. -/
theorem readsAs_object {fs : List (String × Json)} {gs : List (String × Written)}
    (h : FieldsReadAs fs gs) : ReadsAs (.object fs) (.ofFields gs) := by
  intro level
  have hFields : FieldsRead (fs.map fun f => (f.1, f.2.writePretty (level + 1))) gs :=
    List.forall₂_map_left_iff.mpr (h.imp fun f g hBoth => ⟨hBoth.1, hBoth.2 (level + 1)⟩)
  cases fs with
  | nil => exact reads_object isBlank_nil isBlank_nil isBlank_nil hFields
  | cons f fs =>
      rw [writePretty, prettyFields_true_eq, List.append_assoc]
      · exact reads_object (isBlank_newLine _) isBlank_space (isBlank_newLine level) hFields
      · exact nofun

/-! ### Records -/

/-- A name that comes once picks out one field. -/
theorem filter_name_of_nodup {α β : Type} [BEq α] [LawfulBEq α] {l : List (α × β)}
    {p : α × β} (hNodup : (l.map (·.1)).Nodup) (hp : p ∈ l) :
    l.filter (fun q => q.1 == p.1) = [p] := by
  induction l with
  | nil => cases hp
  | cons q l ih =>
      obtain ⟨hApart, hNodup⟩ := List.nodup_cons.mp hNodup
      rcases List.mem_cons.mp hp with rfl | hp
      · have hNone : l.filter (fun q => q.1 == p.1) = [] := by
          rw [List.filter_eq_nil_iff]
          intro q hq hEq
          exact hApart (List.mem_map.mpr ⟨q, hq, by simpa using hEq⟩)
        rw [List.filter_cons_of_pos (by simp), hNone]
      · have hNe : q.1 ≠ p.1 := fun hEq => hApart (List.mem_map.mpr ⟨p, hp, hEq.symm⟩)
        rw [List.filter_cons_of_neg (by simpa using hNe), ih hNodup hp]

theorem named?_piecesOf (fields : List (String × Written)) :
    named? (fields.map fun f => (piecesOf f.1, f.2)) =
      some (fields.map fun f => (f.1.toList, f.2)) := by
  induction fields with
  | nil => rfl
  | cons f fields ih =>
      unfold named? at ih ⊢
      simp [List.mapM_cons, textOf?_piecesOf, ih]

/-- An object whose fields have different names says of each of them what it holds. -/
theorem record?_ofFields (fields : List (String × Written))
    (hNodup : (fields.map (·.1)).Nodup) :
    record? (fields.map (·.1)) (.ofFields fields) = some (fields.map fun f => some f.2) := by
  let given := fields.map fun f => (f.1.toList, f.2)
  have hNames : given.map (·.1) = (fields.map (·.1)).map String.toList := by
    simp [given, Function.comp_def]
  have hGivenNodup : (given.map (·.1)).Nodup := by
    rw [hNames]
    exact List.Nodup.map (fun _ _ => String.toList_inj.mp) hNodup
  have hGiven (f : String × Written) (hf : f ∈ fields) :
      (given.filter fun g => g.1 == f.1.toList) = [(f.1.toList, f.2)] :=
    filter_name_of_nodup hGivenNodup (List.mem_map.mpr ⟨f, hf, rfl⟩)
  simp only [record?, Written.ofFields, named?_piecesOf, Option.bind_eq_bind, Option.bind_some]
  rw [if_neg]
  · rw [List.map_map, Option.some.injEq]
    apply List.map_congr_left
    intro f hf
    simp only [Function.comp_apply]
    rw [hGiven f hf]
    rfl
  · simp only [List.any_map, List.any_eq_true, decide_eq_true_eq, not_exists, not_and,
      Function.comp_apply]
    intro f hf
    rw [hGiven f hf]
    simp

end PageLogic.Json
