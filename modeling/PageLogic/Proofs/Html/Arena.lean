import PageLogic.Html.Position
import PageLogic.Proofs.Html.Attributes
/-!
What the nodes of a document under construction are, however they are moved; and that the finished
document has the elements that were made for it.
-/
namespace PageLogic.Html

/-- Whether a node is as elements are. -/
def Content.IsProper : Content → Prop
  | .element space _ attributes => Proper space attributes
  | _ => True

/-- What lies in several trees lies in one of them. -/
theorem Node.exists_mem_of_mem_positionsAll {above : List Place} {before : List Node} {ns : List Node}
    {q : Position} (hq : q ∈ positionsAll above before ns) :
    ∃ n ∈ ns, ∃ before after, q ∈ n.positions above before after := by
  induction ns generalizing before with
  | nil => cases hq
  | cons n rest ih =>
      rw [positionsAll] at hq
      rcases List.mem_append.mp hq with hq | hq
      · exact ⟨n, List.mem_cons_self, before, rest, hq⟩
      · obtain ⟨m, hm, hFound⟩ := ih hq
        exact ⟨m, List.mem_cons_of_mem n hm, hFound⟩

namespace Arena

variable {a : Arena}

theorem content_update (a : Arena) (n : Nat) (f : Growing → Growing) (m : Nat) :
    (a.update n f).content m =
      if n = m then (a.get? m).elim .document fun g => (f g).content else a.content m := by
  unfold Arena.content update get?
  rw [Array.getElem?_modify]
  split
  · cases a.nodes[m]? <;> rfl
  · rfl

theorem content_eq_of_get? {n : Nat} {g : Growing} (h : a.get? n = some g) :
    a.content n = g.content := by
  rw [Arena.content, h]
  rfl

/-- Wherever a node is hung, it stays what it is. -/
@[simp]
theorem content_move (a : Arena) (n : Nat) (parent : Growing → Option Nat)
    (children : Growing → List Nat) :
    (a.update n fun g => ⟨g.content, parent g, children g⟩).content = a.content := by
  funext m
  rw [content_update]
  split <;> rfl

theorem content_make (a : Arena) (content : Content) (n : Nat) :
    (a.make content).2.content n = if n = a.nodes.size then content else a.content n := by
  simp only [make, Arena.content, get?, Array.getElem?_push]
  split <;> rfl

@[simp]
theorem content_detach (a : Arena) (n : Nat) : (a.detach n).content = a.content := by
  unfold detach
  split <;> simp

@[simp]
theorem content_append (a : Arena) (p n : Nat) : (a.append p n).content = a.content := by
  simp [append]

@[simp]
theorem content_insertBefore (a : Arena) (sibling n : Nat) :
    (a.insertBefore sibling n).content = a.content := by
  unfold insertBefore
  dsimp only
  split <;> simp

@[simp]
theorem content_adopt (a : Arena) (source target : Nat) :
    (a.adopt source target).content = a.content := by
  unfold adopt
  induction a.children source generalizing a with
  | nil => rfl
  | cons c rest ih => rw [List.foldl_cons, ih, content_append]

/-! ### Elements under construction -/

/-- Whether all elements made so far carry attributes as elements do. -/
def IsProper (a : Arena) : Prop :=
  ∀ n, (a.content n).IsProper

theorem isProper_empty : empty.IsProper := by
  intro n
  unfold empty Arena.content get?
  cases n <;> trivial

namespace IsProper

theorem congr {a' : Arena} (h : a.IsProper) (hContent : a'.content = a.content) : a'.IsProper := by
  rwa [IsProper, hContent]

@[grind ←]
theorem detach (h : a.IsProper) (n : Nat) : (a.detach n).IsProper :=
  h.congr (content_detach a n)

@[grind ←]
theorem append (h : a.IsProper) (p n : Nat) : (a.append p n).IsProper :=
  h.congr (content_append a p n)

theorem insertBefore (h : a.IsProper) (sibling n : Nat) : (a.insertBefore sibling n).IsProper :=
  h.congr (content_insertBefore a sibling n)

theorem adopt (h : a.IsProper) (source target : Nat) : (a.adopt source target).IsProper :=
  h.congr (content_adopt a source target)

theorem update (h : a.IsProper) {n : Nat} {f : Growing → Growing}
    (hf : ∀ g, g.content.IsProper → (f g).content.IsProper) : (a.update n f).IsProper := by
  intro m
  rw [content_update]
  split
  · cases hFound : a.get? m with
    | none => trivial
    | some g => exact hf g (content_eq_of_get? hFound ▸ h m)
  · exact h m

theorem make (h : a.IsProper) (content : Content) (hContent : content.IsProper) :
    (a.make content).2.IsProper := by
  intro m
  rw [content_make]
  split
  · exact hContent
  · exact h m

theorem extendText (h : a.IsProper) (n : Nat) (text : String) : (a.extendText n text).IsProper := by
  refine h.update fun g hg => ?_
  split
  · trivial
  · exact hg

@[grind ←]
theorem appendText (h : a.IsProper) (p : Nat) (text : String) : (a.appendText p text).IsProper := by
  have hMade := h.make (.text text) trivial
  unfold Arena.appendText
  split
  · split
    · exact h.extendText _ text
    · exact hMade.append _ _
  · exact hMade.append _ _

theorem insertTextBefore (h : a.IsProper) (sibling : Nat) (text : String) :
    (a.insertTextBefore sibling text).IsProper := by
  have hMade := h.make (.text text) trivial
  unfold Arena.insertTextBefore
  split
  · exact h
  · split
    · split
      · exact h.extendText _ text
      · exact hMade.insertBefore _ _
    · exact hMade.insertBefore _ _

@[grind ←]
theorem addMissing (h : a.IsProper) (n : Nat) {attributes : List Attribute}
    (hPlain : Plain attributes) :
    (a.addMissing n attributes).IsProper := by
  refine h.update fun g hg => ?_
  split
  · rename_i hContent
    rw [hContent] at hg
    exact Proper.append_missing hg hPlain
  · exact hg

end IsProper

/-! ### Finished documents -/

/-- Whether an element is one of those that were made. -/
def Has (a : Arena) (e : Element) : Prop :=
  a.content e.birth = .element e.space e.name e.attributes

theorem Has.proper {e : Element} (hHas : a.Has e) (h : a.IsProper) : Proper e.space e.attributes := by
  have hContent := h e.birth
  rwa [hHas] at hContent

/-- A tree below a node has only elements that were made. -/
theorem has_of_mem_positions {depth n : Nat} {node : Node} (h : a.toNode? depth n = some node)
    {above : List Place} {before after : List Node} {q : Position}
    (hq : q ∈ node.positions above before after) : a.Has q.element := by
  induction depth generalizing n node above before after q with
  | zero => cases h
  | succ depth ih =>
      rw [toNode?] at h
      split at h
      · cases h
      · rename_i hContent
        obtain rfl := Option.some.inj h
        rw [Node.positions] at hq
        rcases List.mem_cons.mp hq with rfl | hBeneath
        · exact hContent
        · obtain ⟨child, hChild, before, after, hq⟩ := Node.exists_mem_of_mem_positionsAll hBeneath
          obtain ⟨m, -, hTree⟩ := List.mem_filterMap.mp hChild
          exact ih hTree hq
      · obtain rfl := Option.some.inj h
        cases hq
      · obtain rfl := Option.some.inj h
        cases hq

/-- A finished document has only elements that were made, if any was made for it. -/
theorem toDocument_cases {q : Position} (hq : q ∈ a.toDocument.positions) :
    a.Has q.element ∨ q.element = ⟨1, .html, "html", []⟩ := by
  unfold toDocument at hq
  dsimp only at hq
  generalize hRoot : List.findSome? _ (List.filterMap _ (a.children 0)) = root? at hq
  cases root? with
  | none =>
      obtain rfl : q = ⟨⟨⟨1, .html, "html", []⟩, [], [], []⟩, []⟩ := List.mem_singleton.mp hq
      exact .inr rfl
  | some d =>
      obtain ⟨node, hNode, hDocument⟩ := List.exists_of_findSome?_eq_some hRoot
      obtain ⟨n, -, hTree⟩ := List.mem_filterMap.mp hNode
      split at hDocument
      · obtain rfl := Option.some.inj hDocument
        exact .inl (has_of_mem_positions hTree hq)
      · cases hDocument

theorem IsProper.of_mem_toDocument (h : a.IsProper) {q : Position} (hq : q ∈ a.toDocument.positions) :
    Proper q.element.space q.element.attributes := by
  rcases toDocument_cases hq with hHas | hAlone
  · exact hHas.proper h
  · rw [hAlone]
    exact plain_nil.proper

end Arena

end PageLogic.Html
