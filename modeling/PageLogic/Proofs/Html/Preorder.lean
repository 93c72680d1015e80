import PageLogic.Html.Position
import Mathlib.Data.List.Infix
/-!
Ancestors and document order. An element is followed in document order by what lies beneath it, and by
nothing else up to its count, so that places in document order decide who lies beneath whom.
-/
namespace PageLogic.Html

namespace Position

variable {p q r : Position} {l : List Place}

/-- The places from the element upward, its own the first. -/
def chain (p : Position) : List Place :=
  p.place :: p.above

theorem chain_injective (h : p.chain = q.chain) : p = q := by
  obtain ⟨place, above⟩ := p
  obtain ⟨place', above'⟩ := q
  obtain ⟨rfl, rfl⟩ := List.cons.inj h
  rfl

theorem mem_along_iff : p ∈ along l ↔ p.chain <:+ l := by
  induction l with
  | nil => simp [along, chain]
  | cons place above ih =>
      rw [along, List.mem_cons, List.suffix_cons_iff, ih]
      exact or_congr_left ⟨fun h => h ▸ rfl, fun h => chain_injective h⟩

theorem mem_ancestors_iff : p ∈ q.ancestors ↔ p.chain <:+ q.above :=
  mem_along_iff

/-- An ancestor has fewer places above it. -/
theorem length_lt_of_mem_ancestors (h : p ∈ q.ancestors) : p.above.length < q.above.length :=
  (mem_ancestors_iff.mp h).length_le

theorem not_mem_ancestors_self (p : Position) : p ∉ p.ancestors :=
  fun h => Nat.lt_irrefl _ (length_lt_of_mem_ancestors h)

theorem chain_suffix_of_mem_ancestors (h : p ∈ q.ancestors) : p.chain <:+ q.chain :=
  (mem_ancestors_iff.mp h).trans (List.suffix_cons _ _)

theorem mem_ancestors_trans (h : p ∈ q.ancestors) (h' : q ∈ r.ancestors) : p ∈ r.ancestors :=
  mem_ancestors_iff.mpr ((chain_suffix_of_mem_ancestors h).trans (mem_ancestors_iff.mp h'))

/-! ### Lists in document order -/

/-- Every element of the list is followed by what lies beneath it, and by nothing else up to its
count. -/
structure InOrder (l : List Position) : Prop where
  fits : ∀ i (p : Position), l[i]? = some p → i + p.count ≤ l.length
  beneath : ∀ i j (p q : Position), l[i]? = some p → l[j]? = some q →
    (p ∈ q.ancestors ↔ i < j ∧ j < i + p.count)

namespace InOrder

variable {l m : List Position}

theorem nil : InOrder [] :=
  ⟨nofun, nofun⟩

/-- An element may be put in front of all that lies beneath it. -/
theorem cons (h : InOrder l) (hCount : p.count = l.length + 1) (hBeneath : ∀ q ∈ l, p ∈ q.ancestors) :
    InOrder (p :: l) where
  fits i q hq := by
    cases i with
    | zero =>
        obtain rfl := Option.some.inj hq
        simp [hCount]
    | succ i =>
        have hFits := h.fits i q hq
        rw [List.length_cons]
        omega
  beneath i j q r hq hr := by
    cases i with
    | zero =>
        obtain rfl := Option.some.inj hq
        cases j with
        | zero =>
            obtain rfl := Option.some.inj hr
            simp [not_mem_ancestors_self]
        | succ j =>
            rw [List.getElem?_cons_succ] at hr
            have hBehind := hBeneath r (List.mem_of_getElem? hr)
            have hLength := (List.getElem?_eq_some_iff.mp hr).1
            simp only [hBehind, true_iff]
            omega
    | succ i =>
        cases j with
        | zero =>
            obtain rfl := Option.some.inj hr
            have hAbove := hBeneath q (List.mem_of_getElem? hq)
            have hNot : q ∉ p.ancestors := fun hMem =>
              not_mem_ancestors_self p (mem_ancestors_trans hAbove hMem)
            simp [hNot]
        | succ j =>
            rw [h.beneath i j q r hq hr]
            omega

/-- Lists of which no element lies beneath one of the other may be joined. -/
theorem append (h : InOrder l) (h' : InOrder m)
    (hApart : ∀ p ∈ l, ∀ q ∈ m, p ∉ q.ancestors ∧ q ∉ p.ancestors) : InOrder (l ++ m) where
  fits i p hp := by
    rw [List.length_append]
    rcases Nat.lt_or_ge i l.length with hi | hi
    · rw [List.getElem?_append_left hi] at hp
      have hFits := h.fits i p hp
      omega
    · rw [List.getElem?_append_right hi] at hp
      have hFits := h'.fits _ p hp
      omega
  beneath i j p q hp hq := by
    rcases Nat.lt_or_ge i l.length with hi | hi <;> rcases Nat.lt_or_ge j l.length with hj | hj
    · rw [List.getElem?_append_left hi] at hp
      rw [List.getElem?_append_left hj] at hq
      exact h.beneath i j p q hp hq
    · rw [List.getElem?_append_left hi] at hp
      rw [List.getElem?_append_right hj] at hq
      have hFits := h.fits i p hp
      have hNot := (hApart p (List.mem_of_getElem? hp) q (List.mem_of_getElem? hq)).1
      simp only [hNot, false_iff]
      omega
    · rw [List.getElem?_append_right hi] at hp
      rw [List.getElem?_append_left hj] at hq
      have hNot := (hApart q (List.mem_of_getElem? hq) p (List.mem_of_getElem? hp)).2
      simp only [hNot, false_iff]
      omega
    · rw [List.getElem?_append_right hi] at hp
      rw [List.getElem?_append_right hj] at hq
      rw [h'.beneath _ _ p q hp hq]
      omega

/-- The subtree of an element ends no later than those of the elements above it. -/
theorem add_count_le (h : InOrder l) {i j : Nat} (hp : l[i]? = some p) (hq : l[j]? = some q)
    (hAbove : p ∈ q.ancestors) : j + q.count ≤ i + p.count := by
  have hCount : 0 < q.count := Nat.succ_pos _
  have hFits := h.fits j q hq
  have hBetween := (h.beneath i j p q hp hq).mp hAbove
  -- The last element of the lower subtree is in the higher one.
  have hLast : l[j + q.count - 1]? = some l[j + q.count - 1] := List.getElem?_eq_getElem _
  by_cases hOne : q.count = 1
  · omega
  · have hBeneath := (h.beneath j _ q _ hq hLast).mpr ⟨by omega, by omega⟩
    have hInside := (h.beneath i _ p _ hp hLast).mp (mem_ancestors_trans hAbove hBeneath)
    omega

end InOrder

end Position

open Position

/-! ### The positions of a tree -/

mutual

/-- All elements of a tree stand beneath or at the place of its root. -/
theorem Node.exists_stem_of_mem_positions (above : List Place) (before after : List Node) :
    ∀ n : Node, ∀ p ∈ n.positions above before after,
      ∃ place : Place, place.before.length = before.length ∧ place :: above <:+ p.chain
  | .element e children => by
    intro p hp
    rw [positions] at hp
    refine ⟨⟨e, children, before, after⟩, rfl, ?_⟩
    rcases List.mem_cons.mp hp with rfl | hp
    · exact List.suffix_rfl
    · obtain ⟨place, _, hStem⟩ := Node.exists_stem_of_mem_positionsAll _ [] children p hp
      exact (List.suffix_cons _ _).trans hStem
  | .text _ | .comment _ => by simp [positions]

/-- Of sibling trees, the ones in front have fewer trees in front of them. -/
theorem Node.exists_stem_of_mem_positionsAll (above : List Place) (before : List Node) :
    ∀ ns : List Node, ∀ p ∈ positionsAll above before ns,
      ∃ place : Place, before.length ≤ place.before.length ∧ place :: above <:+ p.chain
  | [] => by simp [positionsAll]
  | n :: rest => by
    intro p hp
    rw [positionsAll] at hp
    rcases List.mem_append.mp hp with hp | hp
    · obtain ⟨place, hBefore, hStem⟩ := Node.exists_stem_of_mem_positions above before rest n p hp
      exact ⟨place, hBefore.ge, hStem⟩
    · obtain ⟨place, hBefore, hStem⟩ :=
        Node.exists_stem_of_mem_positionsAll above (n :: before) rest p hp
      exact ⟨place, Nat.le_of_succ_le hBefore, hStem⟩

end

/-- What lies beneath an element has the place of the element above it. -/
theorem Node.chain_suffix_of_mem_positionsAll {place : Place} {above : List Place}
    {before : List Node} {ns : List Node} {q : Position}
    (h : q ∈ positionsAll (place :: above) before ns) : place :: above <:+ q.above := by
  obtain ⟨place', _, hStem⟩ := Node.exists_stem_of_mem_positionsAll _ before ns q h
  rcases List.suffix_cons_iff.mp hStem with hEq | hAbove
  · rw [(List.cons.inj hEq).2]
  · exact (List.suffix_cons _ _).trans hAbove

/-- No element of a tree lies beneath one of a tree behind it, or above one. -/
theorem Node.apart_of_mem_positions {above : List Place} {before : List Node} {n : Node}
    {rest : List Node} {p q : Position} (hp : p ∈ n.positions above before rest)
    (hq : q ∈ positionsAll above (n :: before) rest) : p ∉ q.ancestors ∧ q ∉ p.ancestors := by
  obtain ⟨place, hBefore, hStem⟩ := Node.exists_stem_of_mem_positions above before rest n p hp
  obtain ⟨place', hBefore', hStem'⟩ :=
    Node.exists_stem_of_mem_positionsAll above (n :: before) rest q hq
  -- One chain cannot lead upward through the roots of two sibling trees.
  have hChain {l : List Place} (h : place :: above <:+ l) (h' : place' :: above <:+ l) : False := by
    have hEq := (List.suffix_of_suffix_length_le h h' (Nat.le_refl _)).eq_of_length rfl
    obtain ⟨rfl, _⟩ := List.cons.inj hEq
    rw [hBefore, List.length_cons] at hBefore'
    exact Nat.not_succ_le_self _ hBefore'
  exact ⟨fun h => hChain (hStem.trans (chain_suffix_of_mem_ancestors h)) hStem',
    fun h => hChain hStem (hStem'.trans (chain_suffix_of_mem_ancestors h))⟩

mutual

/-- The positions of a tree are in document order. -/
theorem Node.inOrder_positions (above : List Place) (before after : List Node) :
    ∀ n : Node, InOrder (n.positions above before after)
  | .element e children => by
    rw [positions]
    refine (Node.inOrder_positionsAll _ [] children).cons ?_ fun q hq => ?_
    · rw [Node.length_positionsAll]
      simp only [Position.count, Position.node, Node.count]
    · exact mem_ancestors_iff.mpr (Node.chain_suffix_of_mem_positionsAll hq)
  | .text _ | .comment _ => by
    rw [positions]
    exact .nil

theorem Node.inOrder_positionsAll (above : List Place) (before : List Node) :
    ∀ ns : List Node, InOrder (positionsAll above before ns)
  | [] => by
    rw [positionsAll]
    exact .nil
  | n :: rest => by
    rw [positionsAll]
    exact (Node.inOrder_positions above before rest n).append
      (Node.inOrder_positionsAll above (n :: before) rest) fun _ hp _ hq =>
        Node.apart_of_mem_positions hp hq

end

/-- So are the positions of a page. -/
theorem Document.inOrder_positions (d : Document) : InOrder d.positions :=
  Node.inOrder_positions [] [] [] (.element d.root d.children)

end PageLogic.Html
