import PageLogic.Json.Read
/-!
How deep values are nested. The strict reading gives every text that is a value the meaning that it has
without a limit, or none: it refuses exactly the texts in which arrays and objects are nested as deep as the
limit, or deeper.
-/
namespace PageLogic.Json

variable {text : String} {n d : Nat} {j : Json}

namespace Written

mutual

/-- How deep arrays and objects are nested in what is written. -/
def depth : Written → Nat
  | .array items => depthItems items + 1
  | .object fields => depthFields fields + 1
  | .null | .bool _ | .number _ | .string _ => 0

def depthItems : List Written → Nat
  | [] => 0
  | w :: rest => max w.depth (depthItems rest)

def depthFields : List (List Piece × Written) → Nat
  | [] => 0
  | (_, w) :: rest => max w.depth (depthFields rest)

end

end Written

open Written

/-! ### Enough depth -/

mutual

/-- All limits beyond its depth are the same to a value. -/
theorem ofWritten?_congr {d d' : Nat} : (w : Written) → w.depth < d → w.depth < d' →
    ofWritten? d w = ofWritten? d' w
  | .null, _, _ | .bool _, _, _ | .number _, _, _ | .string _, _, _ => by simp only [ofWritten?]
  | .array items, h, h' => by
    rw [Written.depth] at h h'
    have hInside : itemsOf? (d - 1) items = itemsOf? (d' - 1) items :=
      itemsOf?_congr items (by omega) (by omega)
    rw [ofWritten?, ofWritten?, if_neg (by omega), if_neg (by omega), hInside]
  | .object fields, h, h' => by
    rw [Written.depth] at h h'
    have hInside : fieldsOf? (d - 1) [] fields = fieldsOf? (d' - 1) [] fields :=
      fieldsOf?_congr [] fields (by omega) (by omega)
    rw [ofWritten?, ofWritten?, if_neg (by omega), if_neg (by omega), hInside]

theorem itemsOf?_congr {d d' : Nat} : (items : List Written) → depthItems items < d → depthItems items < d' →
    itemsOf? d items = itemsOf? d' items
  | [], _, _ => rfl
  | w :: rest, h, h' => by
    rw [depthItems, Nat.max_lt] at h h'
    rw [itemsOf?, itemsOf?, ofWritten?_congr w h.1 h'.1, itemsOf?_congr rest h.2 h'.2]

theorem fieldsOf?_congr {d d' : Nat} (sofar : List (String × Json)) :
    (fields : List (List Piece × Written)) → depthFields fields < d →
      depthFields fields < d' → fieldsOf? d sofar fields = fieldsOf? d' sofar fields
  | [], _, _ => rfl
  | (key, w) :: rest, h, h' => by
    rw [depthFields, Nat.max_lt] at h h'
    rw [fieldsOf?, fieldsOf?, ofWritten?_congr w h.1 h'.1]
    simp only [fieldsOf?_congr _ rest h.2 h'.2]

end

/-! ### Too little depth -/

mutual

theorem ofWritten?_eq_none {d : Nat} (hd : 0 < d) : (w : Written) → d ≤ w.depth → ofWritten? d w = none
  | .null, h | .bool _, h | .number _, h | .string _, h => absurd h (by simp only [Written.depth]; omega)
  | .array items, h => by
    rw [Written.depth] at h
    rw [ofWritten?]
    split
    · rfl
    · rw [itemsOf?_eq_none (by omega) items (by omega), Option.map_none]
  | .object fields, h => by
    rw [Written.depth] at h
    rw [ofWritten?]
    split
    · rfl
    · rw [fieldsOf?_eq_none (by omega) [] fields (by omega), Option.map_none]

theorem itemsOf?_eq_none {d : Nat} (hd : 0 < d) : (items : List Written) → d ≤ depthItems items →
    itemsOf? d items = none
  | [], h => absurd h (by rw [depthItems]; omega)
  | w :: rest, h => by
    rw [depthItems] at h
    rw [itemsOf?]
    rcases Nat.lt_or_ge w.depth d with hFirst | hFirst
    · rw [itemsOf?_eq_none hd rest (by omega)]
      cases ofWritten? d w <;> rfl
    · rw [ofWritten?_eq_none hd w hFirst]
      rfl

theorem fieldsOf?_eq_none {d : Nat} (hd : 0 < d) (sofar : List (String × Json)) :
    (fields : List (List Piece × Written)) → d ≤ depthFields fields → fieldsOf? d sofar fields = none
  | [], h => absurd h (by rw [depthFields]; omega)
  | (key, w) :: rest, h => by
    rw [depthFields] at h
    rw [fieldsOf?]
    rcases Nat.lt_or_ge w.depth d with hFirst | hFirst
    · simp only [fieldsOf?_eq_none hd _ rest (show d ≤ depthFields rest by omega)]
      cases textOf? key <;> cases ofWritten? d w <;> rfl
    · rw [ofWritten?_eq_none hd w hFirst]
      cases textOf? key <;> rfl

end

/-! ### Texts of values -/

/-- The value of what is written, however deep it is nested. -/
def Written.meaning? (w : Written) : Option Json :=
  ofWritten? (w.depth + 1) w

theorem ofWritten?_eq (hd : 0 < d) (w : Written) :
    ofWritten? d w = if w.depth < d then w.meaning? else none := by
  split
  · next h => exact ofWritten?_congr w h (Nat.lt_succ_self _)
  · next h => exact ofWritten?_eq_none hd w (Nat.le_of_not_lt h)

/-- The text writes down the value, in which arrays and objects are nested so deep. -/
def Spells (text : String) (depth : Nat) (j : Json) : Prop :=
  ∃ w, Written.parse? text.toList = some w ∧ w.depth = depth ∧ w.meaning? = some j

/-- A text is read as its value if this is nested less deep than the limit, and not at all otherwise. -/
theorem Spells.parse? (h : Spells text n j) :
    Json.parse? text = if n < depthLimit then some j else none := by
  obtain ⟨w, hWritten, rfl, hMeaning⟩ := h
  rw [Json.parse?, hWritten, Option.bind_some, ofWritten?_eq (by decide), hMeaning]

end PageLogic.Json
