import PageLogic.Proofs.Html.Similar
/-!
Documents without a subtree. What was taken out of a document stood, in document order, in one piece; in
front of it and behind it stand the elements that remain, each similar to what it was. Only elements
above the subtree have less beneath them than before.
-/
namespace PageLogic.Html

mutual

/-- A tree without the element that has `k` elements in front of it in document order, and without what
lies beneath that element. Nothing remains if it is the outermost one. -/
def Node.without : Node → Nat → Option Node
  | .element _ _, 0 => none
  | .element e children, k + 1 => some (.element e (Node.withoutAll children k))
  | .text content, _ => some (.text content)
  | .comment content, _ => some (.comment content)

/-- As `Node.without`, for sibling trees. -/
def Node.withoutAll : List Node → Nat → List Node
  | [], _ => []
  | n :: rest, k =>
    if k < n.count then (n.without k).toList ++ rest else n :: Node.withoutAll rest (k - n.count)

end

/-- The document without the element at a place, and without what lies beneath it. The outermost element
stays. -/
def Document.without (d : Document) : (index : Nat) → Document
  | 0 => d
  | k + 1 => { d with children := Node.withoutAll d.children k }

/-! ### What is taken out -/

/-- Sibling trees before and after an element, with what lies beneath it, was taken out: the element that
has `k` elements in front of it in document order and the elements of `path` above it, the nearest
first. -/
inductive Taken (e : Element) (beneath : List Node) :
    (path : List Element) → (k : Nat) → List Node → List Node → Prop
  | here (rest : List Node) : Taken e beneath [] 0 (.element e beneath :: rest) rest
  | within {path : List Element} {k : Nat} {children children' : List Node} (outer : Element)
      (rest : List Node) (h : Taken e beneath path k children children') :
      Taken e beneath (path ++ [outer]) (k + 1) (.element outer children :: rest)
        (.element outer children' :: rest)
  | behind {path : List Element} {k : Nat} {rest rest' : List Node} (n : Node)
      (h : Taken e beneath path k rest rest') :
      Taken e beneath path (n.count + k) (n :: rest) (n :: rest')

/-- Where there are elements enough, one is taken out. -/
theorem Node.exists_taken : ∀ (ns : List Node) {k : Nat}, k < Node.countAll ns →
    ∃ e beneath path, Taken e beneath path k ns (Node.withoutAll ns k)
  | [], _, h => by simp [Node.countAll] at h
  | n :: rest, k, h => by
    rw [Node.withoutAll]
    by_cases hHere : k < n.count
    · rw [if_pos hHere]
      cases n with
      | text | comment => simp [Node.count] at hHere
      | element e children =>
          cases k with
          | zero => exact ⟨e, children, [], .here rest⟩
          | succ k =>
              rw [Node.count, Nat.add_lt_add_iff_right] at hHere
              obtain ⟨e', beneath, path, hTaken⟩ := Node.exists_taken children hHere
              exact ⟨e', beneath, path ++ [e], .within e rest hTaken⟩
    · rw [if_neg hHere]
      rw [Node.countAll] at h
      obtain ⟨e, beneath, path, hTaken⟩ := Node.exists_taken rest (k := k - n.count) (by omega)
      have hBehind := Taken.behind n hTaken
      rw [Nat.add_sub_cancel' (by omega)] at hBehind
      exact ⟨e, beneath, path, hBehind⟩

namespace Taken

variable {e : Element} {beneath : List Node} {path : List Element} {k : Nat} {ns ns' : List Node}

theorem append (h : Taken e beneath path k ns ns') (more : List Node) :
    Taken e beneath path k (ns ++ more) (ns' ++ more) := by
  induction h with
  | here rest => exact .here (rest ++ more)
  | within outer rest h _ => exact .within outer (rest ++ more) h
  | behind n _ ih => exact .behind n ih

/-- The elements taken out are missing afterwards. -/
theorem countAll_eq (h : Taken e beneath path k ns ns') :
    Node.countAll ns = Node.countAll ns' + (Node.countAll beneath + 1) := by
  induction h with
  | here rest => simp only [Node.countAll, Node.count]; omega
  | within outer rest _ ih => simp only [Node.countAll, Node.count]; omega
  | behind n _ ih => simp only [Node.countAll]; omega

/-- So is their text. -/
theorem exists_textAll (h : Taken e beneath path k ns ns') :
    ∃ before after, Node.textAll ns = before ++ Node.textAll beneath ++ after ∧
      Node.textAll ns' = before ++ after := by
  induction h with
  | here rest => exact ⟨[], Node.textAll rest, by simp [Node.textAll, Node.fullText]⟩
  | within outer rest _ ih =>
      obtain ⟨before, after, hWhole, hCut⟩ := ih
      exact ⟨before, after ++ Node.textAll rest, by simp [Node.textAll, Node.fullText, hWhole, hCut]⟩
  | behind n _ ih =>
      obtain ⟨before, after, hWhole, hCut⟩ := ih
      exact ⟨n.fullText ++ before, after, by simp [Node.textAll, hWhole, hCut]⟩

/-- Unless it was taken out of one, titles are missing only if they were taken out. -/
theorem exists_titlesAll (h : Taken e beneath path k ns ns') (hPath : ∀ o ∈ path, o.name ≠ "title") :
    ∃ before after, Node.titlesAll ns = before ++ (Node.element e beneath).titles ++ after ∧
      Node.titlesAll ns' = before ++ after := by
  induction h with
  | here rest => exact ⟨[], Node.titlesAll rest, by simp [Node.titlesAll]⟩
  | within outer rest _ ih =>
      obtain ⟨before, after, hWhole, hCut⟩ := ih fun o ho => hPath o (List.mem_append_left _ ho)
      have hOuter : outer.name ≠ "title" := hPath outer (by simp)
      refine ⟨before, after ++ Node.titlesAll rest, ?_, ?_⟩
      · simp [Node.titlesAll, Node.titles, hOuter, hWhole]
      · simp [Node.titlesAll, Node.titles, hOuter, hCut]
  | behind n _ ih =>
      obtain ⟨before, after, hWhole, hCut⟩ := ih hPath
      exact ⟨n.titles ++ before, after, by simp [Node.titlesAll, hWhole, hCut]⟩

end Taken

/-! ### What remains -/

namespace Position

variable {p q r : Position}

/-- Two elements are similar and have the same beneath them. -/
structure Alike (p q : Position) : Prop where
  similar : p.Similar q
  children : p.place.children = q.place.children

/-- An element before and after `r` was taken out. It has the same beneath it, unless it is above `r`. -/
structure Remains (r p q : Position) : Prop where
  similar : p.Similar q
  children : p ∉ r.ancestors ∧ p.place.children = q.place.children ∨
    p ∈ r.ancestors ∧
      ∃ path k, Taken r.element r.place.children path k p.place.children q.place.children

theorem Remains.of_alike (h : p.Alike q) (hNot : p ∉ r.ancestors) : r.Remains p q :=
  ⟨h.similar, .inl ⟨hNot, h.children⟩⟩

theorem forall₂_remains_of_alike {l m : List Position} (h : List.Forall₂ Alike l m)
    (hNot : ∀ p ∈ l, p ∉ r.ancestors) : List.Forall₂ r.Remains l m :=
  ((List.forall₂_and_left l m).mpr ⟨hNot, h⟩).imp fun _ _ h => .of_alike h.2 h.1

end Position

open Position

mutual

/-- A tree has the same elements wherever it stands. -/
theorem Node.forall₂_alike_positions : ∀ (n : Node) {above above' : List Place},
    above.map Place.element = above'.map Place.element → ∀ before before' after after' : List Node,
      List.Forall₂ Alike (n.positions above before after) (n.positions above' before' after')
  | .element e children, _, _, hAbove, _, _, _, _ => by
    rw [Node.positions, Node.positions]
    refine .cons ⟨similar_iff.mpr ⟨rfl, hAbove⟩, rfl⟩ ?_
    exact Node.forall₂_alike_positionsAll children (by simp [hAbove]) _ _
  | .text _, _, _, _, _, _, _, _ | .comment _, _, _, _, _, _, _, _ => by
    rw [Node.positions, Node.positions]
    exact .nil

theorem Node.forall₂_alike_positionsAll : ∀ (ns : List Node) {above above' : List Place},
    above.map Place.element = above'.map Place.element → ∀ before before' : List Node,
      List.Forall₂ Alike (positionsAll above before ns) (positionsAll above' before' ns)
  | [], _, _, _, _, _ => by
    rw [positionsAll, positionsAll]
    exact .nil
  | n :: rest, _, _, hAbove, _, _ => by
    rw [positionsAll, positionsAll]
    exact List.rel_append (Node.forall₂_alike_positions n hAbove _ _ _ _)
      (Node.forall₂_alike_positionsAll rest hAbove _ _)

end

section

variable {r : Position} {above above' : List Place} {n : Node} {before rest : List Node}

/-- The trees behind the one that holds `r` remain. -/
theorem Node.forall₂_remains_behind (hr : r ∈ n.positions above before rest)
    (hAbove : above.map Place.element = above'.map Place.element) (before' : List Node) :
    List.Forall₂ r.Remains (positionsAll above (n :: before) rest) (positionsAll above' before' rest) := by
  apply forall₂_remains_of_alike (Node.forall₂_alike_positionsAll rest hAbove _ before')
  intro p hp
  exact (Node.apart_of_mem_positions hr hp).2

/-- So do the trees in front. -/
theorem Node.forall₂_remains_inFront (hr : r ∈ positionsAll above (n :: before) rest)
    (hAbove : above.map Place.element = above'.map Place.element) (before' rest' : List Node) :
    List.Forall₂ r.Remains (n.positions above before rest) (n.positions above' before' rest') := by
  apply forall₂_remains_of_alike (Node.forall₂_alike_positions n hAbove before before' rest rest')
  intro p hp
  exact (Node.apart_of_mem_positions hp hr).1

end

namespace Position

variable {r : Position} {k : Nat} {l l' m m' : List Position}

/-- The elements of trees before and after `r`, with `k` elements in front of it, was taken out: those in
front and those behind remain. -/
def Splits (r : Position) (k : Nat) (l l' : List Position) : Prop :=
  ∃ front under back front' back' : List Position,
    l = front ++ (r :: under ++ back) ∧ l' = front' ++ back' ∧ front.length = k ∧
      under.length + 1 = r.count ∧ List.Forall₂ r.Remains front front' ∧
      List.Forall₂ r.Remains back back'

theorem Splits.mem (h : r.Splits k l l') : r ∈ l := by
  obtain ⟨front, under, back, _, _, rfl, _⟩ := h
  simp

/-- Of the subtree itself nothing remains. -/
theorem splits_subtree (r : Position) :
    r.Splits 0 (r.node.positions r.above r.place.before r.place.after) [] := by
  refine ⟨[], Node.positionsAll r.chain [] r.place.children, [], [], [], ?_, rfl, rfl, ?_, .nil, .nil⟩
  · rw [node, Node.positions, List.append_nil]
    rfl
  · rw [Node.length_positionsAll]
    rfl

/-- More may remain in front. -/
theorem Splits.append_left (h : r.Splits k l l') (hRemain : List.Forall₂ r.Remains m m') :
    r.Splits (m.length + k) (m ++ l) (m' ++ l') := by
  obtain ⟨front, under, back, front', back', rfl, rfl, rfl, hCount, hFront, hBack⟩ := h
  exact ⟨m ++ front, under, back, m' ++ front', back', by simp, by simp, by simp, hCount,
    List.rel_append hRemain hFront, hBack⟩

/-- And so it may behind. -/
theorem Splits.append_right (h : r.Splits k l l') (hRemain : List.Forall₂ r.Remains m m') :
    r.Splits k (l ++ m) (l' ++ m') := by
  obtain ⟨front, under, back, front', back', rfl, rfl, rfl, hCount, hFront, hBack⟩ := h
  exact ⟨front, under, back ++ m, front', back' ++ m', by simp, by simp, rfl, hCount, hFront,
    List.rel_append hBack hRemain⟩

end Position

/-- The elements of sibling trees split where an element was taken out. -/
theorem Taken.exists_splits {e : Element} {beneath : List Node} {path : List Element} {k : Nat}
    {ns ns' : List Node} (h : Taken e beneath path k ns ns') (above above' : List Place)
    (hAbove : above.map Place.element = above'.map Place.element) (before before' : List Node) :
    ∃ r : Position, r.element = e ∧ r.place.children = beneath ∧
      r.above.map Place.element = path ++ above.map Place.element ∧
      r.Splits k (Node.positionsAll above before ns) (Node.positionsAll above' before' ns') := by
  induction h generalizing above above' before before' with
  | here rest =>
      let r : Position := ⟨⟨e, beneath, before, rest⟩, above⟩
      refine ⟨r, rfl, rfl, rfl, ?_⟩
      rw [Node.positionsAll]
      have hSubtree : r.Splits 0 ((Node.element e beneath).positions above before rest) [] :=
        splits_subtree r
      exact hSubtree.append_right (Node.forall₂_remains_behind hSubtree.mem hAbove before')
  | @within path k children children' outer rest h ih =>
      let o : Position := ⟨⟨outer, children, before, rest⟩, above⟩
      let o' : Position := ⟨⟨outer, children', before', rest⟩, above'⟩
      have hSimilar : o.Similar o' := similar_iff.mpr ⟨rfl, hAbove⟩
      obtain ⟨r, hElement, hChildren, hPath, hBeneath⟩ := ih o.chain o'.chain hSimilar [] []
      refine ⟨r, hElement, hChildren, by simp [hPath, chain, o], ?_⟩
      -- The outer element is above what is taken out.
      have hOuter : o ∈ r.ancestors :=
        mem_ancestors_iff.mpr (Node.chain_suffix_of_mem_positionsAll hBeneath.mem)
      have hRemains : r.Remains o o' :=
        ⟨hSimilar, .inr ⟨hOuter, path, k, hElement ▸ hChildren ▸ h⟩⟩
      have hTree : r.Splits (k + 1) ((Node.element outer children).positions above before rest)
          ((Node.element outer children').positions above' before' rest) := by
        rw [Node.positions, Node.positions, Nat.add_comm]
        exact hBeneath.append_left (.cons hRemains .nil)
      rw [Node.positionsAll, Node.positionsAll]
      exact hTree.append_right (Node.forall₂_remains_behind hTree.mem hAbove _)
  | @behind path k rest rest' n h ih =>
      obtain ⟨r, hElement, hChildren, hPath, hRest⟩ := ih above above' hAbove (n :: before) (n :: before')
      refine ⟨r, hElement, hChildren, hPath, ?_⟩
      rw [Node.positionsAll, Node.positionsAll, ← Node.length_positions above before rest n]
      exact hRest.append_left (Node.forall₂_remains_inFront hRest.mem hAbove before' rest')

namespace Position

variable {p q r : Position} {k j : Nat} {l l' : List Position}

theorem map_element_along : ∀ l : List Place, (along l).map element = l.map Place.element
  | [] => rfl
  | _ :: above => congrArg _ (map_element_along above)

theorem Remains.element_eq (h : r.Remains p q) : p.element = q.element :=
  h.similar.element_eq

/-- An element has the same text as before, or it is above `r`, and the text of `r` is missing. -/
theorem Remains.fullText_cases (h : r.Remains p q) :
    p ∉ r.ancestors ∧ p.fullText = q.fullText ∨ p ∈ r.ancestors ∧
      ∃ before after, p.fullText = before ++ r.fullText ++ after ∧ q.fullText = before ++ after := by
  rcases h.children with ⟨hNot, hSame⟩ | ⟨hAbove, path, k, hTaken⟩
  · exact .inl ⟨hNot, congrArg Node.textAll hSame⟩
  · exact .inr ⟨hAbove, hTaken.exists_textAll⟩

/-- An element has as much beneath it as before, or it is above `r`, and what was taken out is missing. -/
theorem Remains.count_cases (h : r.Remains p q) :
    p ∉ r.ancestors ∧ p.count = q.count ∨ p ∈ r.ancestors ∧ p.count = q.count + r.count := by
  rcases h.children with ⟨hNot, hSame⟩ | ⟨hAbove, path, k, hTaken⟩
  · exact .inl ⟨hNot, congrArg (Node.countAll · + 1) hSame⟩
  · refine .inr ⟨hAbove, ?_⟩
    have hCount := hTaken.countAll_eq
    simp only [Position.count, Position.node, Node.count]
    omega

/-! ### Places of what remains -/

/-- The place is not one of `width` places from `start` on. -/
def Outside (start width j : Nat) : Prop :=
  j < start ∨ start + width ≤ j

instance (start width j : Nat) : Decidable (Outside start width j) :=
  inferInstanceAs (Decidable (_ ∨ _))

/-- Where a place is when `width` places from `start` on are taken out. -/
def closeGap (start width j : Nat) : Nat :=
  if j < start then j else j - width

theorem closeGap_injOn {start width i j : Nat} (hi : Outside start width i)
    (hj : Outside start width j) (h : closeGap start width i = closeGap start width j) : i = j := by
  unfold closeGap at h
  unfold Outside at hi hj
  split at h <;> split at h <;> omega

/-- What stands outside of what is taken out remains at the place to which the gap closes. -/
theorem Splits.getElem?_closeGap (h : r.Splits k l l') (hj : Outside k r.count j) :
    l[j]? = none ∧ l'[closeGap k r.count j]? = none ∨
      ∃ p q, l[j]? = some p ∧ l'[closeGap k r.count j]? = some q ∧ r.Remains p q := by
  obtain ⟨front, under, back, front', back', rfl, rfl, hLength, hCount, hFront, hBack⟩ := h
  have hLength' := hFront.length_eq
  rcases hj with hBefore | hBehind
  · have hj : j < front.length := by omega
    rw [closeGap, if_pos hBefore, List.getElem?_append_left hj,
      List.getElem?_append_left (hLength' ▸ hj)]
    refine .inr ⟨front[j], front'[j], List.getElem?_eq_getElem hj, List.getElem?_eq_getElem _, ?_⟩
    exact hFront.get hj _
  · have hGap : ¬ j < k := by omega
    -- The place among the elements behind.
    obtain ⟨i, rfl⟩ : ∃ i, j = k + r.count + i := ⟨j - (k + r.count), by omega⟩
    have hWhole : (front ++ (r :: under ++ back))[k + r.count + i]? = back[i]? := by
      rw [List.getElem?_append_right (by omega), List.getElem?_append_right (by simp; omega)]
      congr 1
      simp only [List.length_cons]
      omega
    have hCut : (front' ++ back')[k + r.count + i - r.count]? = back'[i]? := by
      rw [List.getElem?_append_right (by omega)]
      congr 1
      omega
    rw [closeGap, if_neg hGap, hWhole, hCut]
    rcases Nat.lt_or_ge i back.length with hi | hi
    · have hi' : i < back'.length := hBack.length_eq ▸ hi
      exact .inr ⟨back[i], back'.get ⟨i, hi'⟩, List.getElem?_eq_getElem hi,
        List.getElem?_eq_getElem hi', hBack.get hi hi'⟩
    · have hi' : back'.length ≤ i := hBack.length_eq ▸ hi
      exact .inl ⟨List.getElem?_eq_none hi, List.getElem?_eq_none hi'⟩

/-- Where of two places outside of the gap the one is beneath the other, an element of which `n` elements
make up the subtree, it is so when the gap closes: either the gap is not within the subtree, or all of it
is, and the subtree has as many elements less. -/
theorem between_closeGap_iff {start width i j n n' : Nat} (hi : Outside start width i)
    (hj : Outside start width j)
    (h : ¬ (j < start ∧ start < j + n) ∧ n = n' ∨ (j < start ∧ start + width ≤ j + n) ∧ n = n' + width) :
    (closeGap start width j < closeGap start width i ∧
      closeGap start width i < closeGap start width j + n') ↔ j < i ∧ i < j + n := by
  unfold Outside at hi hj
  unfold closeGap
  split <;> split <;> omega

theorem forall₂_zipIdx {α β : Type} {R : α → β → Prop} {l : List α} {m : List β}
    (h : List.Forall₂ R l m) (s t : Nat) :
    List.Forall₂ (fun a b => R a.1 b.1 ∧ ∃ i < l.length, a.2 = s + i ∧ b.2 = t + i)
      (l.zipIdx s) (m.zipIdx t) := by
  induction h generalizing s t with
  | nil => exact .nil
  | cons hHead _ ih =>
      rw [List.zipIdx_cons, List.zipIdx_cons]
      refine .cons ⟨hHead, 0, by simp, rfl, rfl⟩ ((ih (s + 1) (t + 1)).imp fun a b h => ?_)
      obtain ⟨hR, i, hi, ha, hb⟩ := h
      exact ⟨hR, i + 1, by simpa using hi, by omega, by omega⟩

/-- The elements outside of what is taken out, with their places, and the elements that remain, with
theirs. -/
theorem Splits.forall₂_zipIdx (h : r.Splits k l l') :
    List.Forall₂ (fun a b => r.Remains a.1 b.1 ∧ Outside k r.count a.2 ∧ b.2 = closeGap k r.count a.2)
      (l.zipIdx.filter fun a => decide (Outside k r.count a.2)) l'.zipIdx := by
  obtain ⟨front, under, back, front', back', rfl, rfl, hLength, hCount, hFront, hBack⟩ := h
  have hFrontLength' := hFront.length_eq
  have hFrontIdx := Position.forall₂_zipIdx hFront 0 0
  have hBackIdx := Position.forall₂_zipIdx hBack (k + r.count) k
  -- Nothing in front or behind is left out by the filter, and nothing of the subtree is kept.
  have hFrontKept : (front.zipIdx.filter fun a => decide (Outside k r.count a.2)) = front.zipIdx := by
    rw [List.filter_eq_self]
    intro a ha
    have hPlace := List.snd_lt_of_mem_zipIdx ha
    exact decide_eq_true (.inl (by omega))
  have hUnderGone : ((r :: under).zipIdx k).filter (fun a => decide (Outside k r.count a.2)) = [] := by
    rw [List.filter_eq_nil_iff]
    intro a ha hOutside
    have hFrom := List.le_snd_of_mem_zipIdx ha
    have hTo := List.snd_lt_add_of_mem_zipIdx ha
    rw [List.length_cons] at hTo
    rcases of_decide_eq_true hOutside with hBefore | hBehind <;> omega
  have hBackKept : ((back.zipIdx (k + r.count)).filter fun a => decide (Outside k r.count a.2)) =
      back.zipIdx (k + r.count) := by
    rw [List.filter_eq_self]
    intro a ha
    exact decide_eq_true (.inr (List.le_snd_of_mem_zipIdx ha))
  rw [List.zipIdx_append, List.zipIdx_append, List.filter_append, List.filter_append, List.zipIdx_append,
    Nat.zero_add, hLength, List.length_cons, hCount, hFrontKept, hUnderGone, hBackKept, List.nil_append,
    Nat.zero_add, ← hFrontLength', hLength]
  refine List.rel_append (hFrontIdx.imp fun a b h => ?_) (hBackIdx.imp fun a b h => ?_)
  · obtain ⟨hRemains, i, hi, ha, hb⟩ := h
    refine ⟨hRemains, .inl (by omega), ?_⟩
    rw [closeGap, if_pos (by omega)]
    omega
  · obtain ⟨hRemains, i, hi, ha, hb⟩ := h
    refine ⟨hRemains, .inr (by omega), ?_⟩
    rw [closeGap, if_neg (by omega)]
    omega

/-- The first element that satisfies a condition is one of those taken out, or it is the first one of those
that remain. -/
theorem Splits.findIdx?_cases (h : r.Splits k l l') {f : Position → Bool}
    (hf : ∀ p q, r.Remains p q → f p = f q) :
    (∃ j, l.findIdx? f = some j ∧ ¬ Outside k r.count j) ∨
      l'.findIdx? f = (l.findIdx? f).map (closeGap k r.count) := by
  obtain ⟨front, under, back, front', back', rfl, rfl, hLength, hCount, hFront, hBack⟩ := h
  have hSame {m m' : List Position} (h : List.Forall₂ r.Remains m m') :
      m'.findIdx? f = m.findIdx? f := by
    induction h with
    | nil => rfl
    | cons hHead _ ih => rw [List.findIdx?_cons, List.findIdx?_cons, ih, hf _ _ hHead]
  rw [List.findIdx?_append, List.findIdx?_append, List.findIdx?_append, hSame hFront, hSame hBack,
    ← hFront.length_eq, hLength, List.length_cons, hCount]
  cases hInFront : front.findIdx? f with
  | some i =>
      have hi : i < k := by
        have hBound := (List.findIdx?_eq_some_iff_getElem.mp hInFront).1
        omega
      exact .inr (by simp [closeGap, hi])
  | none =>
      cases hUnder : (r :: under).findIdx? f with
      | some i =>
          have hi : i < r.count := by
            have hBound := (List.findIdx?_eq_some_iff_getElem.mp hUnder).1
            rw [List.length_cons] at hBound
            omega
          refine .inl ⟨i + k, by simp, ?_⟩
          unfold Outside
          omega
      | none =>
          refine .inr ?_
          cases back.findIdx? f with
          | none => rfl
          | some i =>
              have hGap : ¬ i + r.count + k < k := by omega
              simp only [Option.map_some, Option.none_or, closeGap, if_neg hGap, Option.some.injEq]
              omega

end Position

/-! ### Documents -/

/-- Taking an element, other than the outermost one, out of a document splits its elements. -/
theorem Document.exists_taken {d : Document} {index : Nat} {r : Position} (hInner : 0 < index)
    (hPosition : d.positions[index]? = some r) :
    (∃ path k, Taken r.element r.place.children path k d.children (d.without index).children ∧
      r.above.map Place.element = path ++ [d.root]) ∧
      r.Splits index d.positions (d.without index).positions := by
  obtain ⟨k, rfl⟩ : ∃ k, index = k + 1 := ⟨index - 1, by omega⟩
  have hPositions (d : Document) :
      d.positions = Node.positionsAll [] [] [.element d.root d.children] := by
    simp [Document.positions, Node.positionsAll]
  have hLength : k + 1 < d.positions.length := (List.getElem?_eq_some_iff.mp hPosition).1
  rw [Document.positions, Node.length_positions, Node.count] at hLength
  obtain ⟨e, beneath, path, hTaken⟩ := Node.exists_taken d.children (Nat.lt_of_succ_lt_succ hLength)
  obtain ⟨r', hElement, hChildren, hPath, hSplits⟩ :=
    (Taken.within d.root [] hTaken).exists_splits [] [] rfl [] []
  -- The element taken out is the one at the place.
  obtain rfl : r' = r := by
    obtain ⟨front, under, back, _, _, hWhole, _, hFront, _⟩ := hSplits
    rw [hPositions, hWhole, List.getElem?_append_right (by omega)] at hPosition
    simpa [hFront] using hPosition
  refine ⟨⟨path, k, hElement ▸ hChildren ▸ hTaken, by simpa using hPath⟩, ?_⟩
  rw [hPositions, hPositions]
  exact hSplits

theorem Document.splits_without {d : Document} {index : Nat} {r : Position} (hInner : 0 < index)
    (hPosition : d.positions[index]? = some r) :
    r.Splits index d.positions (d.without index).positions :=
  (Document.exists_taken hInner hPosition).2

/-! ### Titles -/

/-- The older of two titles, the first of two that are as old. -/
def older : Option (Element × List Char) → Option (Element × List Char) →
    Option (Element × List Char)
  | some a, some b => if a.1.birth ≤ b.1.birth then some a else some b
  | some a, none => some a
  | none, b => b

theorem older_assoc (a b c : Option (Element × List Char)) :
    older (older a b) c = older a (older b c) := by
  cases a <;> cases b <;> cases c <;> grind [older]

theorem oldest?_cons (a : Element × List Char) (l : List (Element × List Char)) :
    oldest? (a :: l) = older (some a) (oldest? l) := by
  rw [oldest?]
  cases oldest? l <;> rfl

theorem oldest?_append (l m : List (Element × List Char)) :
    oldest? (l ++ m) = older (oldest? l) (oldest? m) := by
  induction l with
  | nil => rfl
  | cons a l ih => rw [List.cons_append, oldest?_cons, oldest?_cons, ih, older_assoc]

theorem exists_oldest?_of_mem {l : List (Element × List Char)} {a : Element × List Char} (h : a ∈ l) :
    ∃ b, oldest? l = some b ∧ b.1.birth ≤ a.1.birth := by
  induction l with
  | nil => cases h
  | cons c l ih =>
      rw [oldest?_cons]
      rcases List.mem_cons.mp h with rfl | hMem
      · cases hRest : oldest? l <;> grind [older]
      · obtain ⟨b, hb, hLe⟩ := ih hMem
        grind [older]

theorem mem_of_oldest? {l : List (Element × List Char)} {a : Element × List Char}
    (h : oldest? l = some a) : a ∈ l := by
  induction l with
  | nil => cases h
  | cons c l ih =>
      rw [oldest?_cons] at h
      cases hRest : oldest? l <;> grind [older]

/-- Titles that are younger than others may be left out. -/
theorem oldest?_without {front middle back : List (Element × List Char)}
    (h : ∀ a ∈ middle, ∃ b ∈ front ++ back, b.1.birth < a.1.birth) :
    oldest? (front ++ middle ++ back) = oldest? (front ++ back) := by
  rw [oldest?_append, oldest?_append, oldest?_append]
  cases hMiddle : oldest? middle with
  | none => cases oldest? front <;> rfl
  | some a =>
      obtain ⟨b, hb, hLt⟩ := h a (mem_of_oldest? hMiddle)
      rcases List.mem_append.mp hb with hFront | hBack
      · obtain ⟨c, hc, hLe⟩ := exists_oldest?_of_mem hFront
        rw [hc]
        grind [older]
      · obtain ⟨c, hc, hLe⟩ := exists_oldest?_of_mem hBack
        rw [hc]
        cases oldest? front <;> grind [older]

/-- The titles from which a page takes its own. -/
def Document.titles (d : Document) : List (Element × List Char) :=
  Node.titlesAll (d.children ++ d.loose.flatMap (·.children))

/-- A page keeps its title if nothing is taken out of a title, and for every title that is taken out an
older one remains. -/
theorem Document.title_without {d : Document} {index : Nat} {r : Position} (hInner : 0 < index)
    (hPosition : d.positions[index]? = some r)
    (hAbove : ∀ q ∈ r.ancestors, q.element.name ≠ "title")
    (hOlder : ∀ a ∈ r.node.titles, ∃ b ∈ (d.without index).titles, b.1.birth < a.1.birth) :
    (d.without index).title = d.title := by
  obtain ⟨⟨path, k, hTaken, hPath⟩, _⟩ := Document.exists_taken hInner hPosition
  have hNames : ∀ o ∈ path, o.name ≠ "title" := by
    intro o ho
    have hMem : o ∈ r.ancestors.map Position.element := by
      rw [Position.ancestors, Position.map_element_along, hPath]
      exact List.mem_append_left _ ho
    obtain ⟨q, hq, rfl⟩ := List.mem_map.mp hMem
    exact hAbove q hq
  have hLoose : (d.without index).loose = d.loose := by
    cases index <;> rfl
  obtain ⟨front, back, hWhole, hCut⟩ :=
    (hTaken.append (d.loose.flatMap (·.children))).exists_titlesAll hNames
  have hTitle (d : Document) : d.title = (oldest? d.titles).elim [] (·.2) := rfl
  have hWhole : d.titles = front ++ r.node.titles ++ back := hWhole
  have hCut : (d.without index).titles = front ++ back := by rw [Document.titles, hLoose, hCut]
  rw [hCut] at hOlder
  rw [hTitle, hTitle, hWhole, hCut, oldest?_without hOlder]

end PageLogic.Html
