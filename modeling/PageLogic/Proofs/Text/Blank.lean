import PageLogic.Text.Blank
import Mathlib.Data.List.Chain
import Mathlib.Data.List.Infix
/-!
Text that is cut and joined, and collapsed text. Where two texts meet, the last piece of the one and the
first piece of the other become one piece; everything about pieces follows from this. In a collapsed text
blanks are single spaces between words, and a part of a text collapses to a part of the collapsed text,
even where it begins or ends inside a word.
-/
namespace PageLogic.Text

variable {p : Char → Bool} {cs ds : List Char}

/-! ### Pieces -/

/-- The pieces of two texts, one behind the other. -/
theorem exists_pieces_append (p : Char → Bool) (cs ds : List Char) :
    ∃ front last first back, pieces p cs = front ++ [last] ∧ pieces p ds = first :: back ∧
      pieces p (cs ++ ds) = front ++ (last ++ first) :: back := by
  obtain ⟨first, back, hPieces⟩ := List.exists_cons_of_ne_nil (pieces_ne_nil p ds)
  induction cs with
  | nil => exact ⟨[], [], first, back, rfl, hPieces, hPieces⟩
  | cons c rest ih =>
      obtain ⟨front, last, first, back, hRest, hPieces, hBoth⟩ := ih
      by_cases hc : p c = true
      · refine ⟨[] :: front, last, first, back, ?_, hPieces, ?_⟩
        · simp [pieces, hc, hRest]
        · simp [pieces, hc, hBoth]
      · -- The character joins the first piece, which is the last one too if there is no other.
        cases front with
        | nil =>
            refine ⟨[], c :: last, first, back, ?_, hPieces, ?_⟩
            · simp [pieces, hc, hRest, consHead]
            · simp [pieces, hc, hBoth, consHead]
        | cons piece front =>
            refine ⟨(c :: piece) :: front, last, first, back, ?_, hPieces, ?_⟩
            · simp [pieces, hc, hRest, consHead]
            · simp [pieces, hc, hBoth, consHead]

theorem eq_false_of_mem_pieces {piece : List Char} (h : piece ∈ pieces p cs) {c : Char}
    (hc : c ∈ piece) : p c = false := by
  induction cs generalizing piece with
  | nil =>
      obtain rfl := List.mem_singleton.mp h
      cases hc
  | cons d rest ih =>
      by_cases hd : p d = true
      · rw [pieces, if_pos hd] at h
        rcases List.mem_cons.mp h with rfl | h
        · cases hc
        · exact ih h hc
      · obtain ⟨first, back, hPieces⟩ := List.exists_cons_of_ne_nil (pieces_ne_nil p rest)
        rw [pieces, if_neg hd, hPieces, consHead] at h
        rw [hPieces] at ih
        rcases List.mem_cons.mp h with rfl | h
        · rcases List.mem_cons.mp hc with rfl | hc
          · simpa using hd
          · exact ih List.mem_cons_self hc
        · exact ih (List.mem_cons_of_mem _ h) hc

theorem pieces_of_forall (h : ∀ c ∈ cs, p c = false) : pieces p cs = [cs] := by
  induction cs with
  | nil => rfl
  | cons c rest ih =>
      obtain ⟨hc, hRest⟩ := List.forall_mem_cons.mp h
      simp [pieces, hc, ih hRest, consHead]

/-- At an item to cut at, a text falls apart into what stands on either side. -/
theorem pieces_append_cons {d : Char} (hd : p d = true) (cs ds : List Char) :
    pieces p (cs ++ d :: ds) = pieces p cs ++ pieces p ds := by
  obtain ⟨front, last, first, back, hLeft, hRight, hBoth⟩ := exists_pieces_append p cs (d :: ds)
  rw [pieces, if_pos hd] at hRight
  obtain ⟨rfl, rfl⟩ := List.cons.inj hRight
  simp [hLeft, hBoth]

/-! ### Joined pieces -/

variable {separator : List Char} {V W : List (List Char)} {v w : List Char}

/-- Behind the first piece, every piece has a separator in front of it. -/
theorem joinWith_cons (separator w : List Char) (W : List (List Char)) :
    joinWith separator (w :: W) = w ++ W.flatMap (separator ++ ·) := by
  induction W generalizing w with
  | nil => simp [joinWith]
  | cons v W ih => simp [joinWith, ih v]

/-- In front of the last pieces, every piece has a separator behind it. -/
theorem joinWith_append_cons (separator : List Char) (V : List (List Char)) (w : List Char)
    (W : List (List Char)) :
    joinWith separator (V ++ w :: W) = V.flatMap (· ++ separator) ++ joinWith separator (w :: W) := by
  induction V with
  | nil => rfl
  | cons v V ih =>
      have hNonempty : V ++ w :: W ≠ [] := by simp
      obtain ⟨x, X, hRest⟩ := List.exists_cons_of_ne_nil hNonempty
      rw [List.cons_append, hRest, joinWith, ← hRest, ih]
      · simp
      · simp

theorem joinWith_prefix_append (separator : List Char) (V W : List (List Char)) :
    joinWith separator V <+: joinWith separator (V ++ W) := by
  cases V with
  | nil => exact List.nil_prefix
  | cons v V =>
      rw [List.cons_append, joinWith_cons, joinWith_cons, List.flatMap_append, ← List.append_assoc]
      exact List.prefix_append _ _

theorem joinWith_suffix_append (separator : List Char) (V W : List (List Char)) :
    joinWith separator W <:+ joinWith separator (V ++ W) := by
  cases W with
  | nil => exact List.nil_suffix
  | cons w W =>
      rw [joinWith_append_cons]
      exact List.suffix_append _ _

/-- The last piece may be longer, with further pieces behind it. -/
theorem joinWith_concat_prefix (separator : List Char) (V : List (List Char)) (v w : List Char)
    (W : List (List Char)) :
    joinWith separator (V ++ [v]) <+: joinWith separator (V ++ (v ++ w) :: W) := by
  rw [joinWith_append_cons, joinWith_append_cons, joinWith_cons, joinWith_cons]
  simp

/-- The first piece may be longer, with further pieces in front of it. -/
theorem joinWith_cons_suffix (separator : List Char) (V : List (List Char)) (v w : List Char)
    (W : List (List Char)) :
    joinWith separator (w :: W) <:+ joinWith separator (V ++ (v ++ w) :: W) := by
  rw [joinWith_append_cons, joinWith_cons, joinWith_cons, List.append_assoc, ← List.append_assoc]
  exact List.suffix_append _ _

/-- Pieces are found again in the text that is made of them. -/
theorem pieces_joinWith {separator : Char} (hSeparator : p separator = true) (hNonempty : W ≠ [])
    (h : ∀ w ∈ W, ∀ c ∈ w, p c = false) : pieces p (joinWith [separator] W) = W := by
  induction W with
  | nil => exact absurd rfl hNonempty
  | cons w W ih =>
      obtain ⟨hw, hW⟩ := List.forall_mem_cons.mp h
      cases W with
      | nil => exact pieces_of_forall hw
      | cons v W =>
          rw [joinWith, List.append_assoc, List.singleton_append, pieces_append_cons hSeparator,
            pieces_of_forall hw, ih (List.cons_ne_nil _ _) hW]
          · rfl
          · simp

/-! ### Trimmed text -/

/-- Trimming takes off the blanks around a text that has none at its ends. -/
theorem trim_append {front back : List Char} (hFront : ∀ c ∈ front, isBlank c = true)
    (hBack : ∀ c ∈ back, isBlank c = true) (hNonempty : cs ≠ [])
    (hHead : ∀ c ∈ cs.head?, isBlank c = false) (hLast : ∀ c ∈ cs.getLast?, isBlank c = false) :
    trim (front ++ cs ++ back) = cs := by
  -- What dropping blanks leaves of blanks and a text that starts with something else.
  have hDrop {blanks text : List Char} (hBlanks : ∀ c ∈ blanks, isBlank c = true) (hText : text ≠ [])
      (hStart : ∀ c ∈ text.head?, isBlank c = false) :
      (blanks ++ text).dropWhile isBlank = text := by
    obtain ⟨c, rest, rfl⟩ := List.exists_cons_of_ne_nil hText
    rw [List.dropWhile_append_of_pos hBlanks, List.dropWhile_cons_of_neg]
    simp [hStart c rfl]
  have hLeft : trimLeft (front ++ cs ++ back) = cs ++ back := by
    rw [trimLeft, List.append_assoc]
    refine hDrop hFront (by simp [hNonempty]) fun c hc => hHead c ?_
    rwa [List.head?_append_of_ne_nil _ hNonempty] at hc
  rw [trim, hLeft, trimRight, List.reverse_append, hDrop]
  · exact List.reverse_reverse cs
  · simpa using hBack
  · simpa using hNonempty
  · simpa [List.head?_reverse] using hLast

/-! ### Words -/

/-- Something without blanks in it. -/
def IsWord (w : List Char) : Prop :=
  w ≠ [] ∧ ∀ c ∈ w, isBlank c = false

theorem isWord_of_mem_words (h : w ∈ words cs) : IsWord w := by
  obtain ⟨hPiece, hNonempty⟩ := List.mem_filter.mp h
  exact ⟨by simpa using hNonempty, fun c hc => eq_false_of_mem_pieces hPiece hc⟩

/-- Words are found again in the text that is made of them. -/
theorem words_joinWith (h : ∀ w ∈ W, IsWord w) : words (joinWith [' '] W) = W := by
  cases W with
  | nil => rfl
  | cons w W =>
      rw [words, pieces_joinWith (by decide) (List.cons_ne_nil w W) fun w hw => (h w hw).2]
      exact List.filter_eq_self.mpr fun w hw => by simp [(h w hw).1]

/-! ### Collapsed text -/

/-- The text has no blank at either end, no blank but the space, and no two of them side by side. -/
structure IsCollapsed (cs : List Char) : Prop where
  head : ∀ c ∈ cs.head?, isBlank c = false
  last : ∀ c ∈ cs.getLast?, isBlank c = false
  space : ∀ c ∈ cs, isBlank c = true → c = ' '
  apart : cs.IsChain fun c d => isBlank c = false ∨ isBlank d = false

theorem IsWord.isCollapsed (h : IsWord w) : IsCollapsed w where
  head c hc := h.2 c (List.mem_of_mem_head? hc)
  last c hc := h.2 c (List.mem_of_mem_getLast? hc)
  space c hc hBlank := absurd hBlank (by simp [h.2 c hc])
  apart := List.isChain_iff_forall_rel_of_append_cons_cons.mpr fun c _ _ _ hEq =>
    .inl (h.2 c (by simp [hEq]))

/-- A word may be put in front of a collapsed text that is not empty. -/
theorem IsCollapsed.append_space (h : IsCollapsed cs) (hCs : cs ≠ []) (hw : IsWord w) :
    IsCollapsed (w ++ ' ' :: cs) where
  head c hc := by
    rw [List.head?_append_of_ne_nil _ hw.1] at hc
    exact hw.isCollapsed.head c hc
  last c hc := by
    rw [List.getLast?_append_of_ne_nil _ (List.cons_ne_nil _ _), List.getLast?_cons_of_ne_nil hCs] at hc
    exact h.last c hc
  space c hc hBlank := by
    rcases List.mem_append.mp hc with hc | hc
    · exact hw.isCollapsed.space c hc hBlank
    · rcases List.mem_cons.mp hc with rfl | hc
      · rfl
      · exact h.space c hc hBlank
  apart := by
    refine List.isChain_append.mpr ⟨hw.isCollapsed.apart, ?_, fun c hc _ _ => ?_⟩
    · exact List.isChain_cons.mpr ⟨fun d hd => .inr (h.head d hd), h.apart⟩
    · exact .inl (hw.isCollapsed.last c hc)

theorem isCollapsed_joinWith (h : ∀ w ∈ W, IsWord w) : IsCollapsed (joinWith [' '] W) := by
  induction W with
  | nil => exact ⟨nofun, nofun, nofun, .nil⟩
  | cons w W ih =>
      obtain ⟨hw, hW⟩ := List.forall_mem_cons.mp h
      cases W with
      | nil => exact hw.isCollapsed
      | cons v W =>
          have hv : v ≠ [] := (hW v List.mem_cons_self).1
          have hRest : joinWith [' '] (v :: W) ≠ [] := by simp [joinWith_cons, hv]
          have hJoined : joinWith [' '] (w :: v :: W) = w ++ ' ' :: joinWith [' '] (v :: W) := by
            simp [joinWith]
          rw [hJoined]
          exact (ih hW).append_space hRest hw

theorem isCollapsed_collapse (cs : List Char) : IsCollapsed (collapse cs) :=
  isCollapsed_joinWith fun _ => isWord_of_mem_words

theorem collapse_collapse (cs : List Char) : collapse (collapse cs) = collapse cs := by
  rw [collapse, collapse, words_joinWith fun _ => isWord_of_mem_words]

/-- More text behind can only make the last word longer and add words behind it. -/
theorem collapse_prefix_append (cs ds : List Char) : collapse cs <+: collapse (cs ++ ds) := by
  obtain ⟨front, last, first, back, hLeft, _, hBoth⟩ := exists_pieces_append isBlank cs ds
  unfold collapse words
  rw [hLeft, hBoth, List.filter_append, List.filter_append]
  cases last with
  | nil => simpa using joinWith_prefix_append [' '] _ _
  | cons c last => simpa using joinWith_concat_prefix [' '] _ (c :: last) first _

/-- More text in front can only make the first word longer and add words in front of it. -/
theorem collapse_suffix_append (cs ds : List Char) : collapse ds <:+ collapse (cs ++ ds) := by
  obtain ⟨front, last, first, back, _, hRight, hBoth⟩ := exists_pieces_append isBlank cs ds
  unfold collapse words
  rw [hRight, hBoth, List.filter_append]
  cases first with
  | nil =>
      have hSuffix := joinWith_suffix_append [' '] (front.filter (!·.isEmpty) ++ [last].filter (!·.isEmpty))
        (back.filter (!·.isEmpty))
      simpa [← List.filter_append] using hSuffix
  | cons c first => simpa using joinWith_cons_suffix [' '] _ last (c :: first) _

/-- A part of a text collapses to a part of the collapsed text. -/
theorem collapse_infix (h : cs <:+: ds) : collapse cs <:+: collapse ds := by
  obtain ⟨front, back, rfl⟩ := h
  have hFront := collapse_suffix_append front cs
  have hBack := collapse_prefix_append (front ++ cs) back
  exact hFront.isInfix.trans hBack.isInfix

end PageLogic.Text
