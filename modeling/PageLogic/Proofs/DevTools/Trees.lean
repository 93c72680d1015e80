import PageLogic.DevTools.Live
import PageLogic.Proofs.Json.Compact
/-!
Trees of nodes and what pages tell of them. A page tells of a tree in one value, nested as the nodes are; it
may leave out nodes, or the lasting numbers of some. Whatever it leaves out, every number that is found in
what it tells is that of one of its nodes.
-/
namespace PageLogic.DevTools

/-- The ways in which one node can hang below another. -/
inductive Edge where
  | child
  | shadowRoot
  | pseudoElement
  | contentDocument
  | templateContent
  deriving DecidableEq, Repr

/-- The field under which a node tells of the nodes that hang below it in one way. -/
def Edge.key : Edge → String
  | .child => "children"
  | .shadowRoot => "shadowRoots"
  | .pseudoElement => "pseudoElements"
  | .contentDocument => "contentDocument"
  | .templateContent => "templateContent"

/-- The nodes that hang below one in one way: a list of them, or at most one. -/
def Edge.items (edge : Edge) (node : Json) : List Json :=
  match edge with
  | .child | .shadowRoot | .pseudoElement => ((node.get? edge.key).bind Json.array?).getD []
  | .contentDocument | .templateContent => (node.get? edge.key).toList

/-- A tree of nodes, which are of type `ν`. -/
inductive NodeTree (ν : Type) where
  | node (name : ν) (below : List (Edge × NodeTree ν))

variable {ν : Type}

namespace NodeTree

/-- The node at the top. -/
def name : NodeTree ν → ν
  | .node name _ => name

mutual

/-- The nodes of a tree. -/
def names : NodeTree ν → List ν
  | .node name below => name :: namesAll below

def namesAll : List (Edge × NodeTree ν) → List ν
  | [] => []
  | (_, tree) :: rest => tree.names ++ namesAll rest

end

mutual

/-- The value tells of a tree: it says nothing wrong about the number and the lasting number of the node at
the top, and whatever it puts below it tells of a tree that hangs there in the same way. It need not say
anything about a node, nor tell of all nodes. -/
def TellsOf (number backend : ν → Int64) : NodeTree ν → Json → Prop
  | .node name below, json =>
    (∀ pair ∈ NodeIndex.own json, pair = ((number name).toInt, (backend name).toInt)) ∧
      ∀ (edge : Edge), ∀ item ∈ edge.items json, AmongAll number backend edge item below

def AmongAll (number backend : ν → Int64) (edge : Edge) (item : Json) : List (Edge × NodeTree ν) → Prop
  | [] => False
  | (edge', tree) :: rest =>
    edge' = edge ∧ tree.TellsOf number backend item ∨ AmongAll number backend edge item rest

end

end NodeTree

/-! ### What is found in what a page tells -/

theorem int?_int (i : Int64) : Json.int? (Talk.int i.toInt) = some i.toInt := by
  have hLow : -(Word.signedLimit : Int) ≤ i.toInt := i.le_toInt
  have hHigh : i.toInt < (Word.signedLimit : Int) := i.toInt_lt
  simp [Json.int?, Talk.int, hLow, hHigh]

namespace NodeTree

variable {tree : NodeTree ν} {below : List (Edge × NodeTree ν)} {number backend : ν → Int64}
  {json item : Json} {edge : Edge}

theorem name_mem_names (tree : NodeTree ν) : tree.name ∈ tree.names := by
  cases tree
  simp [name, names]

theorem names_subset_namesAll (h : (edge, tree) ∈ below) : tree.names ⊆ namesAll below := by
  induction below with
  | nil => cases h
  | cons first rest ih =>
      obtain ⟨edge', tree'⟩ := first
      rcases List.mem_cons.mp h with hFirst | hRest
      · cases hFirst
        exact List.subset_append_left _ _
      · exact List.subset_append_of_subset_right _ (ih hRest)

theorem amongAll_iff :
    AmongAll number backend edge item below ↔
      ∃ tree, (edge, tree) ∈ below ∧ tree.TellsOf number backend item := by
  induction below with
  | nil => simp [AmongAll]
  | cons first rest ih =>
      obtain ⟨edge', tree'⟩ := first
      rw [AmongAll, ih]
      constructor
      · rintro (⟨rfl, hTells⟩ | ⟨tree, hMem, hTells⟩)
        · exact ⟨tree', List.mem_cons_self, hTells⟩
        · exact ⟨tree, List.mem_cons_of_mem _ hMem, hTells⟩
      · rintro ⟨tree, hMem, hTells⟩
        rcases List.mem_cons.mp hMem with hFirst | hRest
        · cases hFirst
          exact .inl ⟨rfl, hTells⟩
        · exact .inr ⟨tree, hRest, hTells⟩

/-- What hangs below a node hangs there in one of the five ways. -/
theorem exists_edge_of_mem_below (h : item ∈ NodeIndex.below json) :
    ∃ edge : Edge, item ∈ edge.items json := by
  rcases List.mem_append.mp h with hList | hOne
  · obtain ⟨key, hKey, hItem⟩ := List.mem_flatMap.mp hList
    simp only [List.mem_cons, List.not_mem_nil, or_false] at hKey
    rcases hKey with rfl | rfl | rfl
    · exact ⟨.child, hItem⟩
    · exact ⟨.shadowRoot, hItem⟩
    · exact ⟨.pseudoElement, hItem⟩
  · obtain ⟨key, hKey, hItem⟩ := List.mem_filterMap.mp hOne
    simp only [List.mem_cons, List.not_mem_nil, or_false] at hKey
    rcases hKey with rfl | rfl
    · exact ⟨.contentDocument, by simp [Edge.items, Edge.key, hItem]⟩
    · exact ⟨.templateContent, by simp [Edge.items, Edge.key, hItem]⟩

/-- Every pair of numbers that is found in what a page tells of a tree is that of one of its nodes. -/
theorem TellsOf.collect (h : tree.TellsOf number backend json) {depth : Nat} :
    ∀ pair ∈ NodeIndex.collect depth json,
      ∃ a ∈ tree.names, pair = ((number a).toInt, (backend a).toInt) := by
  -- The page decides how deep it tells, so the induction follows what is read and not the tree.
  induction depth generalizing tree json with
  | zero => nofun
  | succ depth ih =>
      intro pair hPair
      obtain ⟨name, below⟩ := tree
      rw [TellsOf] at h
      rcases List.mem_append.mp hPair with hOwn | hBelow
      · exact ⟨name, by simp [names], h.1 pair hOwn⟩
      · obtain ⟨item, hItem, hPair⟩ := List.mem_flatMap.mp hBelow
        obtain ⟨edge, hItem⟩ := exists_edge_of_mem_below hItem
        obtain ⟨tree, hMem, hTells⟩ := amongAll_iff.mp (h.2 edge item hItem)
        obtain ⟨a, ha, hEq⟩ := ih hTells pair hPair
        exact ⟨a, by simp [names, names_subset_namesAll hMem ha], hEq⟩

end NodeTree

/-! ### Pages that tell of a tree -/

namespace NodeTree

mutual

/-- What a page tells of a tree when it tells of those nodes that are `shown` and gives the lasting numbers
of those that are `named`. The fields stand in the order of their names. -/
def render (number backend : ν → Int64) (shown named : ν → Bool) : NodeTree ν → Json
  | .node name below =>
    .object ((if named name then [("backendNodeId", Talk.int (backend name).toInt)] else []) ++
      [("children", .array (renderAll number backend shown named .child below))] ++
      ((renderAll number backend shown named .contentDocument below).head?.map
        fun inner => ("contentDocument", inner)).toList ++
      [("nodeId", Talk.int (number name).toInt),
        ("pseudoElements", .array (renderAll number backend shown named .pseudoElement below)),
        ("shadowRoots", .array (renderAll number backend shown named .shadowRoot below))] ++
      ((renderAll number backend shown named .templateContent below).head?.map
        fun inner => ("templateContent", inner)).toList)

def renderAll (number backend : ν → Int64) (shown named : ν → Bool) (edge : Edge) :
    List (Edge × NodeTree ν) → List Json
  | [] => []
  | (edge', tree) :: rest =>
    let others := renderAll number backend shown named edge rest
    if edge' = edge && shown tree.name then tree.render number backend shown named :: others else others

end

variable {tree : NodeTree ν} {number backend : ν → Int64} {shown named : ν → Bool}

theorem nodeId_render (tree : NodeTree ν) :
    ((tree.render number backend shown named).get? "nodeId").bind Json.int? =
      some (number tree.name).toInt := by
  obtain ⟨name, below⟩ := tree
  rw [render, NodeTree.name]
  generalize (renderAll number backend shown named .contentDocument below).head? = content
  cases named name <;> cases content <;> simp [Json.get?, List.lookup_cons, int?_int]

theorem own_render (name : ν) (below : List (Edge × NodeTree ν)) :
    ∀ pair ∈ NodeIndex.own ((NodeTree.node name below).render number backend shown named),
      pair = ((number name).toInt, (backend name).toInt) := by
  rw [render]
  generalize (renderAll number backend shown named .contentDocument below).head? = content
  generalize (renderAll number backend shown named .templateContent below).head? = template
  cases named name <;> cases content <;> cases template <;>
    simp [NodeIndex.own, Json.get?, List.lookup_cons, int?_int]

theorem items_render_subset (edge : Edge) (name : ν) (below : List (Edge × NodeTree ν)) :
    edge.items ((NodeTree.node name below).render number backend shown named) ⊆
      renderAll number backend shown named edge below := by
  rw [render]
  have hContent : ∀ inner ∈ (renderAll number backend shown named .contentDocument below).head?,
      inner ∈ renderAll number backend shown named .contentDocument below := fun _ => List.mem_of_mem_head?
  have hTemplate : ∀ inner ∈ (renderAll number backend shown named .templateContent below).head?,
      inner ∈ renderAll number backend shown named .templateContent below := fun _ => List.mem_of_mem_head?
  generalize (renderAll number backend shown named .contentDocument below).head? = content at hContent
  generalize (renderAll number backend shown named .templateContent below).head? = template at hTemplate
  cases edge <;> cases named name <;> cases content <;> cases template <;>
    simp_all [Edge.items, Edge.key, Json.get?, Json.array?, List.lookup_cons]

mutual

theorem tellsOf_render : (tree : NodeTree ν) →
    tree.TellsOf number backend (tree.render number backend shown named)
  | .node name below =>
    ⟨own_render name below, fun edge item hItem =>
      amongAll_renderAll edge below item (items_render_subset edge name below hItem)⟩

theorem amongAll_renderAll (edge : Edge) : (below : List (Edge × NodeTree ν)) →
    ∀ item ∈ renderAll number backend shown named edge below, AmongAll number backend edge item below
  | [] => nofun
  | (edge', tree) :: rest => by
    intro item hItem
    rw [renderAll] at hItem
    rw [AmongAll]
    split at hItem
    · next hShown =>
        rcases List.mem_cons.mp hItem with rfl | hRest
        · have hEdge : edge' = edge := by simp_all
          exact .inl ⟨hEdge, tellsOf_render tree⟩
        · exact .inr (amongAll_renderAll edge rest item hRest)
    · exact .inr (amongAll_renderAll edge rest item hItem)

end

/-- Numbers of nodes are numbers of 64 bits. -/
theorem isRegular_int (i : Int64) : (Talk.int i.toInt).IsRegular := by
  have hLow : -(Word.signedLimit : Int) ≤ i.toInt := i.le_toInt
  have hHigh : i.toInt < (Word.limit : Int) :=
    Int.lt_trans i.toInt_lt (show (2 : Int) ^ 63 < (Word.limit : Int) by decide)
  simp [Talk.int, Json.IsRegular, hLow, hHigh]

theorem itemsRegular_iff {items : List Json} :
    Json.ItemsRegular items ↔ ∀ j ∈ items, j.IsRegular := by
  induction items with
  | nil => simp [Json.ItemsRegular]
  | cons j rest ih => rw [Json.ItemsRegular, ih, List.forall_mem_cons]

/-- The names of the fields that a page can tell of a node in, as it writes them. -/
def keys : List String :=
  ["backendNodeId", "children", "contentDocument", "nodeId", "pseudoElements", "shadowRoots", "templateContent"]

theorem sorted_keys : keys.Pairwise (· < ·) := by decide

mutual

/-- What a page tells of a tree can be written and read back. -/
theorem isRegular_render : (tree : NodeTree ν) → (tree.render number backend shown named).IsRegular
  | .node name below => by
    have hItems (edge : Edge) : Json.ItemsRegular (renderAll number backend shown named edge below) :=
      itemsRegular_renderAll edge below
    have hArrays (edge : Edge) : (Json.array (renderAll number backend shown named edge below)).IsRegular := by
      rw [Json.IsRegular]
      exact hItems edge
    have hHead (edge : Edge) : ∀ inner ∈ (renderAll number backend shown named edge below).head?,
        inner.IsRegular := fun inner h => itemsRegular_iff.mp (hItems edge) inner (List.mem_of_mem_head? h)
    have hContent := hHead .contentDocument
    have hTemplate := hHead .templateContent
    rw [render, Json.IsRegular]
    generalize (renderAll number backend shown named .contentDocument below).head? = content at hContent
    generalize (renderAll number backend shown named .templateContent below).head? = template at hTemplate
    refine ⟨List.pairwise_map.mp (sorted_keys.sublist ?_), ?_⟩
    · cases named name <;> cases content <;> cases template <;> simp [keys]
    · cases named name <;> cases content <;> cases template <;>
        simp_all [Json.FieldsRegular, isRegular_int]

theorem itemsRegular_renderAll (edge : Edge) : (below : List (Edge × NodeTree ν)) →
    Json.ItemsRegular (renderAll number backend shown named edge below)
  | [] => by rw [renderAll, Json.ItemsRegular]; trivial
  | (edge', tree) :: rest => by
    rw [renderAll]
    split
    · rw [Json.ItemsRegular]
      exact ⟨isRegular_render tree, itemsRegular_renderAll edge rest⟩
    · exact itemsRegular_renderAll edge rest

end

end NodeTree

end PageLogic.DevTools
