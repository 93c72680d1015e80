import PageLogic.Proofs.Json.Nesting
import PageLogic.Proofs.Json.RoundTrip
import Mathlib.Data.List.DropRight
/-!
Values written on one line. A value without doubles, whose whole numbers fit into 64 bits and whose fields
stand in the order of their names, is spelled by the text that it is written as.
-/
namespace PageLogic.Json

open Written

variable {j : Json} {w : Written} {cs : List Char}

mutual

/-- How deep arrays and objects are nested in a value. -/
def nesting : Json → Nat
  | .array items => nestingItems items + 1
  | .object fields => nestingFields fields + 1
  | .null | .bool _ | .number _ | .string _ => 0

def nestingItems : List Json → Nat
  | [] => 0
  | j :: rest => max j.nesting (nestingItems rest)

def nestingFields : List (String × Json) → Nat
  | [] => 0
  | (_, j) :: rest => max j.nesting (nestingFields rest)

end

mutual

/-- The value has no doubles, its whole numbers fit into 64 bits with or without sign, and the fields of its
objects stand in the order of their names. -/
def IsRegular : Json → Prop
  | .null | .bool _ | .string _ => True
  | .number (.whole i) => -(Word.signedLimit : Int) ≤ i ∧ i < Word.limit
  | .number (.real _) => False
  | .array items => ItemsRegular items
  | .object fields => fields.Pairwise (fun f g => f.1 < g.1) ∧ FieldsRegular fields

def ItemsRegular : List Json → Prop
  | [] => True
  | j :: rest => j.IsRegular ∧ ItemsRegular rest

def FieldsRegular : List (String × Json) → Prop
  | [] => True
  | (_, j) :: rest => j.IsRegular ∧ FieldsRegular rest

end

/-! ### Texts -/

theorem items_congr {ds : List Char} (h : dropSpaces cs = dropSpaces ds) (fuel : Nat) :
    items fuel cs = items fuel ds := by
  cases fuel with
  | zero => rfl
  | succ fuel => rw [items, items, value_congr h]

/-- No value begins with a bracket that closes. -/
theorem Reads.dropSpaces_ne (h : Reads cs w) {more : List Char} (hMore : EndsNumber more)
    (rest : List Char) : dropSpaces (cs ++ more) ≠ ']' :: rest := by
  intro hBracket
  have hValue := h cs.length more (Nat.le_refl _) hMore
  rw [value, hBracket] at hValue
  cases hValue

theorem writeItems_cons_cons (j j' : Json) (js : List Json) :
    writeItems true (j :: j' :: js) = write j ++ ',' :: writeItems true (j' :: js) := by
  simp [writeItems]

/-- The text of items reads as the items, up to the bracket behind them. -/
theorem items_writeItems {js : List Json} {ws : List Written}
    (h : List.Forall₂ (fun j w => Reads j.write w) (j :: js) ws) {fuel : Nat} {rest : List Char}
    (hFuel : (writeItems true (j :: js)).length + 1 < fuel) :
    items fuel (writeItems true (j :: js) ++ ']' :: rest) = some (ws, rest) := by
  induction js generalizing j ws fuel with
  | nil =>
      obtain ⟨w, ws, hReads, hTail, rfl⟩ := List.forall₂_cons_left_iff.mp h
      obtain rfl := List.forall₂_nil_left_iff.mp hTail
      obtain ⟨fuel, rfl⟩ := Nat.exists_eq_succ_of_ne_zero (Nat.ne_zero_of_lt hFuel)
      simp only [writeItems, ↓reduceIte, List.nil_append, List.append_nil] at hFuel ⊢
      have hValue : value fuel (j.write ++ ']' :: rest) = some (w, ']' :: rest) :=
        hReads.value_append (by omega) (by simp [EndsNumber])
      simp only [items, hValue, dropSpaces_cons_of_not_isSpace (show isSpace ']' = false from rfl)]
  | cons j' js ih =>
      obtain ⟨w, ws, hReads, hTail, rfl⟩ := List.forall₂_cons_left_iff.mp h
      obtain ⟨fuel, rfl⟩ := Nat.exists_eq_succ_of_ne_zero (Nat.ne_zero_of_lt hFuel)
      rw [writeItems_cons_cons] at hFuel ⊢
      rw [List.length_append, List.length_cons] at hFuel
      have hValue : value fuel (j.write ++ ',' :: (writeItems true (j' :: js) ++ ']' :: rest)) =
          some (w, ',' :: (writeItems true (j' :: js) ++ ']' :: rest)) :=
        hReads.value_append (by omega) (by simp [EndsNumber])
      have hMore : items fuel (writeItems true (j' :: js) ++ ']' :: rest) = some (ws, rest) :=
        ih hTail (by omega)
      rw [List.append_assoc, List.cons_append, items]
      simp only [hValue, dropSpaces_cons_of_not_isSpace (show isSpace ',' = false from rfl), hMore,
        Option.map_some]

theorem reads_array {js : List Json} {ws : List Written}
    (h : List.Forall₂ (fun j w => Reads j.write w) js ws) : Reads (write (.array js)) (.array ws) := by
  intro fuel rest hFuel _
  cases js with
  | nil =>
      obtain rfl := List.forall₂_nil_left_iff.mp h
      simp [write, writeItems, value, dropSpaces_cons_of_not_isSpace, isSpace]
  | cons j js =>
      obtain ⟨w, ws, hReads, _, rfl⟩ := List.forall₂_cons_left_iff.mp h
      have hInside : (writeItems true (j :: js)).length + 1 < fuel := by
        simp only [write, List.length_append, List.length_cons] at hFuel
        omega
      have hItems : items fuel (writeItems true (j :: js) ++ ']' :: rest) = some (w :: ws, rest) :=
        items_writeItems h hInside
      -- The items do not begin with a bracket, so that the array is not the empty one.
      have hOpen : ∀ cs, dropSpaces (writeItems true (j :: js) ++ ']' :: rest) ≠ ']' :: cs := by
        cases js with
        | nil =>
            simp only [writeItems, ↓reduceIte, List.nil_append, List.append_nil]
            exact hReads.dropSpaces_ne (by simp [EndsNumber])
        | cons j' js =>
            rw [writeItems_cons_cons, List.append_assoc]
            exact hReads.dropSpaces_ne (by simp [EndsNumber])
      have hWritten : write (.array (j :: js)) ++ rest =
          '[' :: (writeItems true (j :: js) ++ ']' :: rest) := by
        simp [write]
      rw [hWritten, value, dropSpaces_cons_of_not_isSpace rfl]
      simp only
      have hSame : dropSpaces (dropSpaces (writeItems true (j :: js) ++ ']' :: rest)) =
          dropSpaces (writeItems true (j :: js) ++ ']' :: rest) :=
        List.dropWhile_idempotent ..
      rw [items_congr hSame, hItems]
      rfl

theorem writeFields_true_eq (fs : List (String × Json)) :
    writeFields true fs = joinFields [] [] (fs.map fun f => (f.1, f.2.write)) := by
  induction fs with
  | nil => rfl
  | cons f fs ih =>
      cases fs with
      | nil => simp [writeFields, joinFields]
      | cons f' fs =>
          have hNext : writeFields false (f' :: fs) = ',' :: writeFields true (f' :: fs) := by
            simp [writeFields]
          rw [List.map_cons] at ih
          rw [List.map_cons, List.map_cons, joinFields_cons_cons, ← ih, writeFields, hNext]
          simp

theorem reads_fields {fs : List (String × Json)} {gs : List (String × Written)}
    (h : List.Forall₂ (fun f g => f.1 = g.1 ∧ Reads f.2.write g.2) fs gs) :
    Reads (write (.object fs)) (.ofFields gs) := by
  have hFields : FieldsRead (fs.map fun f => (f.1, f.2.write)) gs := List.forall₂_map_left_iff.mpr h
  rw [write, writeFields_true_eq]
  exact reads_object isBlank_nil isBlank_nil isBlank_nil hFields

/-! ### Meanings -/

/-- A whole number that fits into 64 bits is read back from its digits. -/
theorem Numeral.number?_ofInt {i : Int} (hLow : -(Word.signedLimit : Int) ≤ i) (hHigh : i < Word.limit) :
    (Numeral.ofInt i).number? = some (.whole i) := by
  cases i with
  | ofNat n =>
      have hFits : n < Word.limit := Int.ofNat_lt.mp hHigh
      simp [Numeral.ofInt, Numeral.ofNat, number?, natOf_toDigits, hFits]
  | negSucc n =>
      have hFits : n + 1 ≤ Word.signedLimit := by omega
      simp [Numeral.ofInt, number?, natOf_toDigits, hFits, Int.negSucc_eq]

/-- A field with a greater name goes behind all others. -/
theorem putField_of_forall_lt {name : String} {fields : List (String × Json)}
    (h : ∀ f ∈ fields, f.1 < name) (j : Json) : putField name j fields = fields ++ [(name, j)] := by
  induction fields with
  | nil => rfl
  | cons f fields ih =>
      obtain ⟨hFirst, hRest⟩ := List.forall_mem_cons.mp h
      have hNe : name ≠ f.1 := by
        rintro rfl
        exact String.lt_irrefl _ hFirst
      rw [putField, if_neg hNe, if_neg (String.lt_asymm hFirst), ih hRest, List.cons_append]

/-- What is written for the value on one line: it is nested as deep, and means the value. -/
structure WrittenAs (j : Json) (w : Written) : Prop where
  reads : Reads j.write w
  depth : w.depth = j.nesting
  meaning : w.meaning? = some j

theorem WrittenAs.ofWritten? (h : j.WrittenAs w) {d : Nat} (hd : w.depth < d) :
    Json.ofWritten? d w = some j := by
  rw [ofWritten?_eq (Nat.zero_lt_of_lt hd), if_pos hd, h.meaning]

theorem depthItems_eq {js : List Json} {ws : List Written} (h : List.Forall₂ WrittenAs js ws) :
    depthItems ws = nestingItems js := by
  induction h with
  | nil => rfl
  | cons hFirst _ ih => rw [depthItems, nestingItems, hFirst.depth, ih]

theorem itemsOf?_eq {js : List Json} {ws : List Written} (h : List.Forall₂ WrittenAs js ws) {d : Nat}
    (hd : depthItems ws < d) : itemsOf? d ws = some js := by
  induction h with
  | nil => rfl
  | cons hFirst _ ih =>
      rw [depthItems, Nat.max_lt] at hd
      rw [itemsOf?, hFirst.ofWritten? hd.1, ih hd.2]
      rfl

theorem writtenAs_array {js : List Json} {ws : List Written} (h : List.Forall₂ WrittenAs js ws) :
    (array js).WrittenAs (.array ws) where
  reads := reads_array (h.imp fun _ _ hEach => hEach.reads)
  depth := by rw [Written.depth, nesting, depthItems_eq h]
  meaning := by
    rw [meaning?, Written.depth, Json.ofWritten?, if_neg (by omega), Nat.add_sub_cancel,
      itemsOf?_eq h (Nat.lt_succ_self _), Option.map_some]

/-- Fields of the same names, each of which is written as the other. -/
def FieldsWrittenAs : List (String × Json) → List (String × Written) → Prop :=
  List.Forall₂ fun f g => f.1 = g.1 ∧ f.2.WrittenAs g.2

section

variable {fs : List (String × Json)} {gs : List (String × Written)}

theorem depthFields_eq (h : FieldsWrittenAs fs gs) :
    depthFields (gs.map fun g => (piecesOf g.1, g.2)) = nestingFields fs := by
  induction h with
  | nil => rfl
  | cons hFirst _ ih => rw [List.map_cons, depthFields, nestingFields, hFirst.2.depth, ih]

/-- Fields in the order of their names go behind those that were read before. -/
theorem fieldsOf?_eq (h : FieldsWrittenAs fs gs) (hOrder : fs.Pairwise fun f g => f.1 < g.1)
    {sofar : List (String × Json)} (hSofar : ∀ f ∈ sofar, ∀ g ∈ fs, f.1 < g.1) {d : Nat}
    (hd : depthFields (gs.map fun g => (piecesOf g.1, g.2)) < d) :
    fieldsOf? d sofar (gs.map fun g => (piecesOf g.1, g.2)) = some (sofar ++ fs) := by
  induction h generalizing sofar with
  | nil => rw [List.map_nil, fieldsOf?, List.append_nil]
  | @cons f g fs gs hFirst _ ih =>
      obtain ⟨hName, hWritten⟩ := hFirst
      obtain ⟨hBehind, hOrder⟩ := List.pairwise_cons.mp hOrder
      rw [List.map_cons, depthFields, Nat.max_lt] at hd
      have hPut : putField g.1 f.2 sofar = sofar ++ [f] := by
        rw [← hName]
        exact putField_of_forall_lt (fun f' hf' => hSofar f' hf' f List.mem_cons_self) f.2
      have hMore : ∀ f' ∈ sofar ++ [f], ∀ g ∈ fs, f'.1 < g.1 := by
        intro f' hf' g hg
        rcases List.mem_append.mp hf' with hf' | hf'
        · exact hSofar f' hf' g (List.mem_cons_of_mem _ hg)
        · obtain rfl := List.mem_singleton.mp hf'
          exact hBehind g hg
      rw [List.map_cons, fieldsOf?]
      simp only [textOf?_piecesOf, hWritten.ofWritten? hd.1, Option.bind_eq_bind, Option.bind_some,
        String.ofList_toList, hPut]
      rw [ih hOrder hMore hd.2, List.append_assoc, List.singleton_append]

theorem writtenAs_object (h : FieldsWrittenAs fs gs) (hOrder : fs.Pairwise fun f g => f.1 < g.1) :
    (object fs).WrittenAs (.ofFields gs) where
  reads := reads_fields (h.imp fun _ _ hEach => ⟨hEach.1, hEach.2.reads⟩)
  depth := by rw [ofFields, Written.depth, nesting, depthFields_eq h]
  meaning := by
    rw [ofFields, meaning?, Written.depth, Json.ofWritten?, if_neg (by omega), Nat.add_sub_cancel,
      fieldsOf?_eq h hOrder (List.forall_mem_nil _) (Nat.lt_succ_self _), Option.map_some, List.nil_append]

end

/-! ### Round trip -/

mutual

theorem exists_writtenAs : (j : Json) → j.IsRegular → ∃ w, j.WrittenAs w
  | .null, _ => ⟨.null, reads_null, rfl, rfl⟩
  | .bool b, _ => ⟨.bool b, reads_bool b, rfl, rfl⟩
  | .number (.whole i), h => by
    rw [IsRegular] at h
    refine ⟨.number (.ofInt i), reads_whole i, rfl, ?_⟩
    rw [meaning?, ofWritten?, Numeral.number?_ofInt h.1 h.2, Option.map_some]
  | .number (.real _), h => absurd h (by rw [IsRegular]; exact not_false)
  | .string s, _ => by
    refine ⟨.string (piecesOf s), reads_string s, rfl, ?_⟩
    rw [meaning?, ofWritten?, textOf?_piecesOf, Option.map_some, String.ofList_toList]
  | .array items, h => by
    rw [IsRegular] at h
    obtain ⟨ws, hItems⟩ := exists_writtenItems items h
    exact ⟨.array ws, writtenAs_array hItems⟩
  | .object fields, h => by
    rw [IsRegular] at h
    obtain ⟨gs, hFields⟩ := exists_writtenFields fields h.2
    exact ⟨.ofFields gs, writtenAs_object hFields h.1⟩

theorem exists_writtenItems : (js : List Json) → ItemsRegular js →
    ∃ ws, List.Forall₂ WrittenAs js ws
  | [], _ => ⟨[], .nil⟩
  | j :: rest, h => by
    rw [ItemsRegular] at h
    obtain ⟨w, hFirst⟩ := exists_writtenAs j h.1
    obtain ⟨ws, hRest⟩ := exists_writtenItems rest h.2
    exact ⟨w :: ws, .cons hFirst hRest⟩

theorem exists_writtenFields : (fs : List (String × Json)) → FieldsRegular fs →
    ∃ gs, FieldsWrittenAs fs gs
  | [], _ => ⟨[], .nil⟩
  | (k, j) :: rest, h => by
    rw [FieldsRegular] at h
    obtain ⟨w, hFirst⟩ := exists_writtenAs j h.1
    obtain ⟨gs, hRest⟩ := exists_writtenFields rest h.2
    exact ⟨(k, w) :: gs, .cons ⟨rfl, hFirst⟩ hRest⟩

end

/-- The text on one line spells the value. -/
theorem spells_compact (h : j.IsRegular) : Spells j.compact j.nesting j := by
  obtain ⟨w, hWritten⟩ := exists_writtenAs j h
  refine ⟨w, ?_, hWritten.depth, hWritten.meaning⟩
  rw [compact, String.toList_ofList]
  exact hWritten.reads.parse?

end PageLogic.Json
