import PageLogic.Proofs.DevTools.Serving
import PageLogic.Proofs.DevTools.Trees
import PageLogic.Proofs.Text.Spelling
/-!
Enumeration goes by lasting numbers. The numbers under which a page tells of its nodes are good for one
document only, and a page may leave out nodes, or the lasting numbers of some, when it tells of the
document. Neither shows in the handles that an enumeration returns. But the tree has to reach the client: it
comes in one message, and one that is nested as deep as `Json.depthLimit` is passed over, so that the
enumeration fails when its time is up.
-/
namespace PageLogic.DevTools

variable {ν σ τ : Type}

/-- The page, in the state `s` of its side, tells of the tree with the given numbers for its nodes, in a
message that is nested `depth` levels deep. After that it answers what is said about numbers, in the states
`Ready`: which nodes a selector finds below a node, which number belongs to a lasting number, and the other
way round. These answers are lists and numbers, not nested so deep that they are passed over. -/
structure NodeTree.ServedBy (tree : NodeTree ν) (backend : ν → Int64) (found : ν → String → List ν)
    (number : ν → Int64) (server : Server σ) (Ready : σ → Prop) (depth : Nat) (s : σ) : Prop where
  injective : ∀ a ∈ tree.names, ∀ b ∈ tree.names, number a = number b → a = b
  ne_zero : ∀ a ∈ tree.names, number a ≠ 0
  found_mem : ∀ p ∈ tree.names, ∀ scope, ∀ a ∈ found p scope, a ∈ tree.names
  document : server.Answers (· = s) "DOM.getDocument" (.object [("depth", Talk.int (-1))])
    (fun n r => n = depth ∧ ∃ root, r.get? "root" = some root ∧
      (root.get? "nodeId").bind Json.int? = some (number tree.name).toInt ∧
      tree.TellsOf number backend root) Ready
  select : ∀ p ∈ tree.names, ∀ scope, server.Answers Ready "DOM.querySelectorAll"
    (.object [("nodeId", Talk.int (number p).toInt), ("selector", .string scope)])
    (fun n r => n < Json.depthLimit ∧ (r.get? "nodeIds").bind Json.array? =
      some ((found p scope).map fun a => Talk.int (number a).toInt)) Ready
  push : ∀ p ∈ tree.names, server.Answers Ready "DOM.pushNodesByBackendIdsToFrontend"
    (.object [("backendNodeIds", .array [Talk.int (backend p).toInt])])
    (fun n r => n < Json.depthLimit ∧
      (r.get? "nodeIds").bind Json.array? = some [Talk.int (number p).toInt]) Ready
  describe : ∀ a ∈ tree.names, server.Answers Ready "DOM.describeNode"
    (.object [("nodeId", Talk.int (number a).toInt)])
    (fun n r => n < Json.depthLimit ∧
      ((r.get? "node").bind (·.get? "backendNodeId")).bind Json.int? = some (backend a).toInt) Ready

/-! ### Pages that serve a tree -/

namespace NodeTree

/-- The node of which a number in a command speaks. -/
def nodeAt? (tree : NodeTree ν) (number : ν → Int64) (json : Option Json) : Option ν :=
  (json.bind Json.int?).bind fun i => tree.names.find? fun a => (number a).toInt = i

/-- The result with which a page answers a command about a tree, if the command speaks of its nodes. -/
def result? (tree : NodeTree ν) (number backend : ν → Int64) (shown named : ν → Bool)
    (found : ν → String → List ν) (method : String) (params : Json) : Option Json :=
  if method = "DOM.getDocument" then some (.object [("root", tree.render number backend shown named)])
  else if method = "DOM.querySelectorAll" then do
    let p ← tree.nodeAt? number (params.get? "nodeId")
    let scope ← (params.get? "selector").bind Json.string?
    return .object [("nodeIds", .array ((found p scope).map fun a => Talk.int (number a).toInt))]
  else if method = "DOM.pushNodesByBackendIdsToFrontend" then do
    let ids ← (params.get? "backendNodeIds").bind Json.array?
    return .object [("nodeIds", .array (ids.map fun id =>
      Talk.int (((tree.nodeAt? backend (some id)).map number).getD 0).toInt))]
  else if method = "DOM.describeNode" then do
    let a ← tree.nodeAt? number (params.get? "nodeId")
    return .object [("node", .object [("backendNodeId", Talk.int (backend a).toInt)])]
  else none

/-- A page that serves a tree. -/
def server (tree : NodeTree ν) (number backend : ν → Int64) (shown named : ν → Bool)
    (found : ν → String → List ν) : Server Unit where
  react request _ :=
    let fields : List (String × Json) :=
      match tree.result? number backend shown named found request.method request.params with
      | some r => [("result", r)]
      | none => [("error", .object [("code", Talk.int (-32000)),
          ("message", .string "Could not find node with given id")])]
    ([Endpoint.replyText request.id fields], ())

variable {tree : NodeTree ν} {number backend : ν → Int64} {shown named : ν → Bool}
  {found : ν → String → List ν}

theorem nodeAt?_eq (hInjective : ∀ a ∈ tree.names, ∀ b ∈ tree.names, number a = number b → a = b)
    {a : ν} (ha : a ∈ tree.names) : tree.nodeAt? number (some (Talk.int (number a).toInt)) = some a := by
  rw [nodeAt?, Option.bind_some, int?_int, Option.bind_some]
  cases hFind : tree.names.find? fun b => (number b).toInt = (number a).toInt with
  | none => simpa using List.find?_eq_none.mp hFind a ha
  | some b =>
      have hNumber : (number b).toInt = (number a).toInt := by simpa using List.find?_some hFind
      have hb : b ∈ tree.names := List.mem_of_find?_eq_some hFind
      rw [hInjective b hb a ha (Int64.toInt_inj.mp hNumber)]

theorem itemsRegular_map_int (number : ν → Int64) (as : List ν) :
    Json.ItemsRegular (as.map fun a => Talk.int (number a).toInt) := by
  rw [itemsRegular_iff]
  intro j hj
  obtain ⟨a, _, rfl⟩ := List.mem_map.mp hj
  exact isRegular_int (number a)

theorem nestingItems_map_int (number : ν → Int64) (as : List ν) :
    Json.nestingItems (as.map fun a => Talk.int (number a).toInt) = 0 := by
  induction as with
  | nil => rfl
  | cons a rest ih =>
      rw [List.map_cons, Json.nestingItems, ih]
      rfl

/-- The page sends its results. -/
theorem answers_server {method : String} {params r : Json} {kind : Nat → Json → Prop}
    (hResult : tree.result? number backend shown named found method params = some r) (hRegular : r.IsRegular)
    (hKind : kind (r.nesting + 1) r) (K : Unit → Prop) :
    (tree.server number backend shown named found).Answers K method params kind fun _ => True := by
  intro s _ id hId
  refine ⟨_, (), _, r, ?_, replied_replyText hId hRegular, hKind, trivial⟩
  simp only [server, hResult]

/-- Every tree is served under every numbering, and with any nodes and lasting numbers left out. The message
is nested two levels deeper than what the page tells of the tree. -/
theorem servedBy_server
    (hNumber : ∀ a ∈ tree.names, ∀ b ∈ tree.names, number a = number b → a = b)
    (hBackend : ∀ a ∈ tree.names, ∀ b ∈ tree.names, backend a = backend b → a = b)
    (hZero : ∀ a ∈ tree.names, number a ≠ 0)
    (hFound : ∀ p ∈ tree.names, ∀ scope, ∀ a ∈ found p scope, a ∈ tree.names) :
    tree.ServedBy backend found number (tree.server number backend shown named found) (fun _ => True)
      ((tree.render number backend shown named).nesting + 2) () where
  injective := hNumber
  ne_zero := hZero
  found_mem := hFound
  document := by
    refine answers_server (r := .object [("root", tree.render number backend shown named)]) rfl ?_ ⟨?_, _,
      rfl, nodeId_render tree, tellsOf_render tree⟩ _
    · simp [Json.IsRegular, Json.FieldsRegular, isRegular_render]
    · simp [Json.nesting, Json.nestingFields]
  select p hp scope := by
    refine answers_server (r := .object [("nodeIds", .array ((found p scope).map fun a =>
      Talk.int (number a).toInt))]) ?_ ?_ ⟨?_, rfl⟩ _
    · simp [result?, Json.get?, List.lookup_cons, nodeAt?_eq hNumber hp, Json.string?]
    · simp [Json.IsRegular, Json.FieldsRegular, itemsRegular_map_int]
    · simp [Json.nesting, Json.nestingFields, Json.depthLimit, nestingItems_map_int]
  push p hp := by
    refine answers_server (r := .object [("nodeIds", .array [Talk.int (number p).toInt])]) ?_ ?_ ⟨?_, rfl⟩ _
    · simp [result?, Json.get?, Json.array?, nodeAt?_eq hBackend hp]
    · simp [Json.IsRegular, Json.FieldsRegular, Json.ItemsRegular, isRegular_int]
    · simp [Json.nesting, Json.nestingFields, Json.nestingItems, Json.depthLimit, Talk.int]
  describe a ha := by
    refine answers_server (r := .object [("node", .object [("backendNodeId", Talk.int (backend a).toInt)])])
      ?_ ?_ ⟨?_, int?_int (backend a)⟩ _
    · simp [result?, Json.get?, nodeAt?_eq hNumber ha]
    · simp [Json.IsRegular, Json.FieldsRegular, isRegular_int]
    · simp [Json.nesting, Json.nestingFields, Json.depthLimit, Talk.int]

end NodeTree

/-! ### Enumerations -/

theorem ints_map_int (number : ν → Int64) (as : List ν) :
    Talk.ints (as.map fun a => Talk.int (number a).toInt) = as.map fun a => (number a).toInt := by
  have hEach : (Json.int? ∘ fun a => Talk.int (number a).toInt) = some ∘ fun a => (number a).toInt :=
    funext fun a => int?_int (number a)
  rw [Talk.ints, List.filterMap_map, hEach, List.filterMap_eq_map]

/-- The lasting number of a handle is read back. -/
theorem backendId_handle (i : Int64) : backendId (handle i.toInt) = .ok i.toInt := by
  have hRead : Text.intWithin? Word.signedLimit (handle i.toInt).id.toList = some i.toInt :=
    Text.intWithin?_toString i.le_toInt i.toInt_lt
  rw [backendId, hRead]

namespace NodeTree.ServedBy

variable {tree : NodeTree ν} {backend number : ν → Int64} {found : ν → String → List ν} {server : Server σ}
  {Ready : σ → Prop} {depth : Nat} {s : σ} {secs : Nat}

/-- The index knows the tree: its root is the node at the top, and a lasting number that it has for a node
is the right one. -/
def Knows (tree : NodeTree ν) (backend number : ν → Int64) (index : NodeIndex) : Prop :=
  index.root = (number tree.name).toInt ∧
    ∀ a ∈ tree.names, ∀ i, index.lookup (number a).toInt = some i → i = (backend a).toInt

theorem lookup_eq (h : tree.ServedBy backend found number server Ready depth s) {pairs : List (Int × Int)}
    (hPairs : ∀ pair ∈ pairs, ∃ a ∈ tree.names, pair = ((number a).toInt, (backend a).toInt))
    {a : ν} (ha : a ∈ tree.names) {i : Int} (hLookup : pairs.lookup (number a).toInt = some i) :
    i = (backend a).toInt := by
  -- The newest pair for a number counts, but every pair for it is that of the one node that has it.
  obtain ⟨before, after, rfl, _⟩ := List.lookup_eq_some_iff.mp hLookup
  obtain ⟨b, hb, hPair⟩ := hPairs ((number a).toInt, i) (by simp)
  obtain ⟨hNumber, rfl⟩ := Prod.mk.inj hPair
  rw [h.injective a ha b hb (Int64.toInt_inj.mp hNumber)]

theorem fetch_yields (h : tree.ServedBy backend found number server Ready depth s)
    (hDepth : depth < Json.depthLimit) (n : Nat) :
    Talk.Yields (server.link secs) (ReadyFor (n + 1) (· = s)) NodeIndex.fetch (Knows tree backend number)
      (ReadyFor n Ready) := by
  have hReplies := h.document.replies (fun _ _ hKind => hKind.1 ▸ hDepth) secs n
  have hDocument : Talk.Yields (server.link secs) (ReadyFor (n + 1) (· = s)) Talk.document (fun root =>
      (root.get? "nodeId").bind Json.int? = some (number tree.name).toInt ∧
        tree.TellsOf number backend root) (ReadyFor n Ready) := by
    refine (Talk.yields_command hReplies).andThen ?_
    rintro r ⟨_, _, root, hRoot, hTells⟩
    exact Talk.yields_required hRoot hTells
  refine hDocument.andThen ?_
  rintro root ⟨hNumber, hTells⟩
  refine Talk.yields_ofExcept (a := ⟨(number tree.name).toInt,
    (NodeIndex.collect Json.depthLimit root).reverse⟩) ?_ ⟨rfl, fun a ha i hLookup => ?_⟩
  · rw [NodeIndex.ofRoot, hNumber]
  · refine h.lookup_eq (fun pair hPair => ?_) ha hLookup
    exact hTells.collect pair (List.mem_reverse.mp hPair)

/-- The handles of nodes hold their lasting numbers, whether the index has them or the page is asked. -/
theorem handles_yields (h : tree.ServedBy backend found number server Ready depth s) {index : NodeIndex}
    (hKnows : Knows tree backend number index) {as : List ν} (has : ∀ a ∈ as, a ∈ tree.names) :
    Talk.Yields (server.link secs) (ReadyFor as.length Ready)
      (index.handles (as.map fun a => (number a).toInt))
      (· = as.map fun a => handle (backend a).toInt) (ReadyFor 0 Ready) := by
  induction as with
  | nil => exact Talk.yields_value rfl
  | cons a rest ih =>
      have ha : a ∈ tree.names := has a List.mem_cons_self
      rw [List.map_cons, NodeIndex.handles]
      have hRest (i : Int) (hi : i = (backend a).toInt) :
          Talk.Yields (server.link secs) (ReadyFor rest.length Ready)
            ((index.handles (rest.map fun a => (number a).toInt)).map fun others => handle i :: others)
            (· = (a :: rest).map fun a => handle (backend a).toInt) (ReadyFor 0 Ready) := by
        refine (ih fun b hb => has b (List.mem_cons_of_mem _ hb)).map fun others hOthers => ?_
        rw [hOthers, hi, List.map_cons]
      cases hLookup : index.lookup (number a).toInt with
      | some i => exact (hRest i (hKnows.2 a ha i hLookup)).of_imp fun _ hs => hs.mono (Nat.le_succ _)
      | none =>
          have hReplies := (h.describe a ha).replies (fun _ _ hKind => hKind.1) secs rest.length
          have hAsked : Talk.Yields (server.link secs) (ReadyFor (rest.length + 1) Ready)
              (Talk.describe (number a).toInt) (· = (backend a).toInt) (ReadyFor rest.length Ready) := by
            refine (Talk.yields_command hReplies).andThen fun r hDescribed => ?_
            obtain ⟨_, _, hBackend⟩ := hDescribed
            exact Talk.yields_required hBackend rfl
          exact hAsked.andThen hRest

theorem select_yields (h : tree.ServedBy backend found number server Ready depth s) {index : NodeIndex}
    (hKnows : Knows tree backend number index) {p : ν} (hp : p ∈ tree.names) (scope : String) :
    Talk.Yields (server.link secs) (ReadyFor ((found p scope).length + 1) Ready)
      (DevTools.select index (number p).toInt scope)
      (· = (found p scope).map fun a => handle (backend a).toInt) (ReadyFor 0 Ready) := by
  have hReplies := (h.select p hp scope).replies (fun _ _ hKind => hKind.1) secs (found p scope).length
  have hNumbers : Talk.Yields (server.link secs) (ReadyFor ((found p scope).length + 1) Ready)
      (Talk.querySelectorAll (number p).toInt scope)
      (· = (found p scope).map fun a => (number a).toInt) (ReadyFor (found p scope).length Ready) := by
    refine (Talk.yields_command hReplies).map fun r hFound => ?_
    obtain ⟨_, _, hIds⟩ := hFound
    rw [hIds, Option.map_some, Option.getD_some, ints_map_int]
  refine hNumbers.andThen fun ids hIds => ?_
  subst hIds
  exact h.handles_yields hKnows (h.found_mem p hp scope)

theorem elements_yields (h : tree.ServedBy backend found number server Ready depth s)
    (hDepth : depth < Json.depthLimit) (scope : String) :
    Talk.Yields (server.link secs) (ReadyFor ((found tree.name scope).length + 2) (· = s))
      (ask (.elements scope)) (· = .ok ((found tree.name scope).map fun a => handle (backend a).toInt))
      (ReadyFor 0 Ready) := by
  refine (h.fetch_yields hDepth _).andThen fun index hKnows => ?_
  rw [hKnows.1]
  exact (h.select_yields hKnows tree.name_mem_names scope).map fun _ hFound => congrArg Except.ok hFound

theorem descendants_yields (h : tree.ServedBy backend found number server Ready depth s)
    (hDepth : depth < Json.depthLimit) {p : ν} (hp : p ∈ tree.names) (scope : String) :
    Talk.Yields (server.link secs) (ReadyFor ((found p scope).length + 3) (· = s))
      (ask (.descendants (handle (backend p).toInt) scope))
      (· = .ok ((found p scope).map fun a => handle (backend a).toInt)) (ReadyFor 0 Ready) := by
  have hReplies := (h.push p hp).replies (fun _ _ hKind => hKind.1) secs ((found p scope).length + 1)
  have hPushed : Talk.Yields (server.link secs) (ReadyFor ((found p scope).length + 2) Ready)
      (Talk.pushNodes [(backend p).toInt]) (· = [(number p).toInt])
      (ReadyFor ((found p scope).length + 1) Ready) := by
    refine (Talk.yields_command hReplies).andThen fun r hNumbers => ?_
    obtain ⟨_, _, hIds⟩ := hNumbers
    refine Talk.yields_required (a := [(number p).toInt]) ?_ rfl
    rw [hIds, Option.map_some]
    exact congrArg some (ints_map_int number [p])
  have hLive : (number p).toInt ≠ 0 := fun hZero => h.ne_zero p hp (Int64.toInt_inj.mp hZero)
  rw [ask, backendId_handle]
  refine (h.fetch_yields hDepth _).andThen fun index hKnows => ?_
  refine hPushed.andThen fun pushed hEq => ?_
  subst hEq
  simp only [if_neg hLive]
  exact (h.select_yields hKnows hp scope).map fun _ hFound => congrArg Except.ok hFound

end NodeTree.ServedBy

/-- A talk that yields one answer is the answer of the oracle. -/
theorem answer_of_yields {link : Link σ} {K K' : σ → Prop} {q : Question} {r : Except Fault q.Value} {s : σ}
    (h : Talk.Yields link K (ask q) (· = r) K') (hs : K s) : ((oracle link).answer q s).1 = r := by
  obtain ⟨_, _, rfl, _, hRun⟩ := h s hs
  simp only [oracle, hRun]

/-- The oracle at an endpoint that does not close the connection answers as the one at the server. -/
theorem answer_of_staysOpen {e : Endpoint} (h : e.StaysOpen) (secs : Nat) (q : Question) :
    ((oracle (Endpoint.link secs)).answer q e).1 =
      ((oracle (Endpoint.server.link secs)).answer q (e.dispatch, e.replies)).1 := by
  have hRun := h.run_link secs (ask q)
  simp only [oracle]
  generalize (ask q).run (Endpoint.link secs) e = first at hRun
  generalize (ask q).run (Endpoint.server.link secs) (e.dispatch, e.replies) = second at hRun
  obtain ⟨r, _⟩ := first
  obtain ⟨r', _⟩ := second
  obtain rfl : r = r' := hRun
  cases r <;> rfl

/-! ### Documents that do not arrive -/

section

variable {server : Server σ} {K K' : σ → Prop} {kind : Nat → Json → Prop} {n : Nat} {s : Dispatch × σ}
  (h : server.Answers K "DOM.getDocument" (.object [("depth", Talk.int (-1))]) kind K')
  (hKind : ∀ depth r, kind depth r → Json.depthLimit ≤ depth) (secs : Nat) (hs : ReadyFor (n + 1) K s)

include h hKind hs

/-- The tree of nodes comes in a message that is nested too deep. -/
theorem fetch_timeout :
    ∃ s', NodeIndex.fetch.run (server.link secs) s = (.error (.timeout "DOM.getDocument" secs), s') := by
  obtain ⟨s', _, hExchange⟩ := h.timeout hKind secs hs
  have hCommand : (Talk.command "DOM.getDocument" (.object [("depth", Talk.int (-1))])).run
      (server.link secs) s = (.error (.timeout "DOM.getDocument" secs), s') := by
    rw [Talk.run_command, hExchange]
  have hDocument : Talk.document.run (server.link secs) s =
      (.error (.timeout "DOM.getDocument" secs), s') := Talk.run_andThen_of_error hCommand _
  exact ⟨s', Talk.run_andThen_of_error hDocument _⟩

theorem elements_timeout (scope : String) :
    ((oracle (server.link secs)).answer (.elements scope) s).1 =
      .error (Failure.timeout "DOM.getDocument" secs).toFault := by
  obtain ⟨s', hFetch⟩ := fetch_timeout h hKind secs hs
  simp only [oracle, ask, Talk.run_andThen_of_error hFetch]

theorem descendants_timeout (i : Int64) (scope : String) :
    ((oracle (server.link secs)).answer (.descendants (handle i.toInt) scope) s).1 =
      .error (Failure.timeout "DOM.getDocument" secs).toFault := by
  obtain ⟨s', hFetch⟩ := fetch_timeout h hKind secs hs
  simp only [oracle, ask, backendId_handle, Talk.run_andThen_of_error hFetch]

end

/-! ### Numberings -/

/-- What an enumeration comes to: the handles of nodes, if the tree arrives in a message that is nested less
deep than the limit, and otherwise a fault when the time of the command is up. -/
def enumerated (secs depth : Nat) (backendIds : List Int64) : Except Fault (List Handle) :=
  if depth < Json.depthLimit then .ok (backendIds.map fun i => ⟨toString i.toInt⟩)
  else .error ⟨.unexpected, (Failure.timeout "DOM.getDocument" secs).message⟩

namespace NodeTree.ServedBy

variable {tree : NodeTree ν} {backend number : ν → Int64} {found : ν → String → List ν} {server : Server σ}
  {Ready : σ → Prop} {depth : Nat} {s : σ} {d : Dispatch}

theorem answer_elements (h : tree.ServedBy backend found number server Ready depth s) (hIdle : d.IsIdle)
    (scope : String) (hRoom : d.nextId + ((found tree.name scope).length + 2) ≤ Word.limit) (secs : Nat) :
    ((oracle (server.link secs)).answer (.elements scope) (d, s)).1 =
      enumerated secs depth ((found tree.name scope).map backend) := by
  rw [enumerated]
  split
  · next hDepth =>
      rw [List.map_map]
      exact answer_of_yields (h.elements_yields hDepth scope) ⟨hIdle, hRoom, rfl⟩
  · next hDepth =>
      exact elements_timeout h.document (fun _ _ hKind => hKind.1 ▸ Nat.le_of_not_lt hDepth) secs
        ⟨hIdle, hRoom, rfl⟩ scope

theorem answer_descendants (h : tree.ServedBy backend found number server Ready depth s) (hIdle : d.IsIdle)
    {p : ν} (hp : p ∈ tree.names) (scope : String)
    (hRoom : d.nextId + ((found p scope).length + 3) ≤ Word.limit) (secs : Nat) :
    ((oracle (server.link secs)).answer (.descendants (handle (backend p).toInt) scope) (d, s)).1 =
      enumerated secs depth ((found p scope).map backend) := by
  rw [enumerated]
  split
  · next hDepth =>
      rw [List.map_map]
      exact answer_of_yields (h.descendants_yields hDepth hp scope) ⟨hIdle, hRoom, rfl⟩
  · next hDepth =>
      exact descendants_timeout h.document (fun _ _ hKind => hKind.1 ▸ Nat.le_of_not_lt hDepth) secs
        ⟨hIdle, hRoom, rfl⟩ (backend p) scope

end NodeTree.ServedBy

/-- Under whatever numbers a page serves its tree and whatever it leaves out, the enumerations of an idle client
return the handles of the nodes that the selector finds, in that order, if the message that tells of the
tree is nested less deep than the limit. Two servings for which this holds are enumerated alike. A deeper
message is lost, and the enumeration fails. The commands must find numbers of 64 bits. -/
theorem enumeration_ignores_numbering {tree : NodeTree ν} {backend : ν → Int64} {found : ν → String → List ν}
    {number number' : ν → Int64} {server : Server σ} {server' : Server τ} {Ready : σ → Prop}
    {Ready' : τ → Prop} {depth depth' : Nat} {s : σ} {s' : τ}
    (h : tree.ServedBy backend found number server Ready depth s)
    (h' : tree.ServedBy backend found number' server' Ready' depth' s') {d d' : Dispatch} (hIdle : d.IsIdle)
    (hIdle' : d'.IsIdle) (scope : String)
    (hRoom : ∀ p ∈ tree.names, d.nextId + ((found p scope).length + 3) ≤ Word.limit)
    (hRoom' : ∀ p ∈ tree.names, d'.nextId + ((found p scope).length + 3) ≤ Word.limit) (secs secs' : Nat) :
    let near := oracle (server.link secs)
    let far := oracle (server'.link secs')
    (near.answer (.elements scope) (d, s)).1 =
        enumerated secs depth ((found tree.name scope).map backend) ∧
      (depth < Json.depthLimit → depth' < Json.depthLimit →
        (near.answer (.elements scope) (d, s)).1 = (far.answer (.elements scope) (d', s')).1) ∧
      ∀ p ∈ tree.names,
        (near.answer (.descendants ⟨toString (backend p).toInt⟩ scope) (d, s)).1 =
            enumerated secs depth ((found p scope).map backend) ∧
          (depth < Json.depthLimit → depth' < Json.depthLimit →
            (near.answer (.descendants ⟨toString (backend p).toInt⟩ scope) (d, s)).1 =
              (far.answer (.descendants ⟨toString (backend p).toInt⟩ scope) (d', s')).1) := by
  intro near far
  have hSame (as : List ν) (hDepth : depth < Json.depthLimit) (hDepth' : depth' < Json.depthLimit) :
      enumerated secs depth (as.map backend) = enumerated secs' depth' (as.map backend) := by
    rw [enumerated, enumerated, if_pos hDepth, if_pos hDepth']
  have hTop := hRoom tree.name tree.name_mem_names
  have hTop' := hRoom' tree.name tree.name_mem_names
  have hElements := h.answer_elements hIdle scope (by omega) secs
  have hElements' := h'.answer_elements hIdle' scope (by omega) secs'
  refine ⟨hElements, fun hDepth hDepth' => ?_, fun p hp => ?_⟩
  · exact hElements.trans ((hSame _ hDepth hDepth').trans hElements'.symm)
  · have hBelow := h.answer_descendants hIdle hp scope (hRoom p hp) secs
    have hBelow' := h'.answer_descendants hIdle' hp scope (hRoom' p hp) secs'
    exact ⟨hBelow, fun hDepth hDepth' => hBelow.trans ((hSame _ hDepth hDepth').trans hBelow'.symm)⟩

namespace NodeTree

/-- A document with a heading and an item that has a shadow, in which there is a frame with a document of
its own. -/
def framed : NodeTree (Fin 5) :=
  .node 0 [(.child, .node 1 []),
    (.child, .node 2 [(.shadowRoot, .node 3 [(.contentDocument, .node 4 [])])])]

def lasting (a : Fin 5) : Int64 := .ofNat (100 * a)

/-- Below the document everything else is found, the last first. -/
def foundInFramed (p : Fin 5) (_ : String) : List (Fin 5) :=
  if p = 0 then [4, 3, 2, 1] else []

/-- One page tells of everything. The other has numbered the nodes from the end, and tells neither of what
is below the item nor of any lasting number. -/
theorem enumeration_ignores_numbering_framed :
    let openly := framed.server (fun a => .ofNat (a + 1)) lasting (fun _ => true) (fun _ => true)
      foundInFramed
    let barely := framed.server (fun a => .ofNat (9 - a)) lasting (fun a => a < 3) (fun _ => false)
      foundInFramed
    framed.ServedBy lasting foundInFramed (fun a => .ofNat (a + 1)) openly (fun _ => True) 9 () ∧
      framed.ServedBy lasting foundInFramed (fun a => .ofNat (9 - a)) barely (fun _ => True) 6 () ∧
      Dispatch.start.IsIdle ∧
      (∀ p, Dispatch.start.nextId + ((foundInFramed p "*").length + 3) ≤ Word.limit) ∧
      ((oracle (openly.link 30)).answer (.elements "*") (.start, ())).1 =
        .ok [⟨"400"⟩, ⟨"300"⟩, ⟨"200"⟩, ⟨"100"⟩] ∧
      ((oracle (openly.link 30)).answer (.elements "*") (.start, ())).1 =
        ((oracle (barely.link 5)).answer (.elements "*") (.start, ())).1 := by
  intro openly barely
  have hNames : ∀ a, a ∈ framed.names := by decide
  have hFound : ∀ p ∈ framed.names, ∀ scope, ∀ a ∈ foundInFramed p scope, a ∈ framed.names :=
    fun _ _ _ a _ => hNames a
  have hOpenly : framed.ServedBy lasting foundInFramed _ openly _ 9 _ :=
    servedBy_server (by decide) (by decide) (by decide) hFound
  have hBarely : framed.ServedBy lasting foundInFramed _ barely _ 6 _ :=
    servedBy_server (by decide) (by decide) (by decide) hFound
  have hRoom : ∀ p, Dispatch.start.nextId + ((foundInFramed p "*").length + 3) ≤ Word.limit := by decide
  have hTexts : enumerated 30 9 ((foundInFramed framed.name "*").map lasting) =
      .ok [⟨"400"⟩, ⟨"300"⟩, ⟨"200"⟩, ⟨"100"⟩] := by
    rw [enumerated, if_pos (by decide)]
    exact congrArg Except.ok (by decide +kernel)
  obtain ⟨hElements, hEqual, _⟩ := enumeration_ignores_numbering hOpenly hBarely Dispatch.isIdle_start
    Dispatch.isIdle_start "*" (fun p _ => hRoom p) (fun p _ => hRoom p) 30 5
  exact ⟨hOpenly, hBarely, Dispatch.isIdle_start, hRoom, hElements.trans hTexts,
    hEqual (by decide) (by decide)⟩

/-! ### Deep documents -/

/-- A node with so many others below it, each in the one before. -/
def chain : Nat → NodeTree Nat
  | 0 => .node 0 []
  | n + 1 => .node (n + 1) [(.child, chain n)]

/-- The last of them is found below all others. -/
def foundInChain (_ : Nat) (_ : String) : List Nat :=
  [0]

theorem nesting_render_chain (number backend : Nat → Int64) (n : Nat) :
    ((chain n).render number backend (fun _ => true) fun _ => true).nesting = 2 * n + 2 := by
  induction n with
  | zero => rfl
  | succ n ih =>
      rw [chain, render]
      simp [renderAll, Json.nesting, Json.nestingFields, Json.nestingItems, ih, Talk.int]
      omega

/-- A page tells of a document with 63 others nested below it. The message does not reach the client, so that
its enumeration fails where the last node was to be found; and so it does with an endpoint that sends the
message and the number of that node as replies to the first two commands. -/
theorem deep_document_is_lost :
    let number (a : Nat) : Int64 := .ofNat (a + 1)
    let page := (chain 63).server number number (fun _ => true) (fun _ => true) foundInChain
    let root := (chain 63).render number number (fun _ => true) fun _ => true
    let script : List Scripted := [⟨[], false, some [("result", .object [("root", root)])]⟩,
      ⟨[], false, some [("result", .object [("nodeIds", .array [Talk.int 1])])]⟩]
    (chain 63).ServedBy number foundInChain number page (fun _ => True) 130 () ∧
      ((oracle (page.link 5)).answer (.elements "*") (.start, ())).1 =
        .error ⟨.unexpected, "CDP command 'DOM.getDocument' timed out after 5s"⟩ ∧
      ((oracle (Endpoint.link 5)).answer (.elements "*") (.start script)).1 =
        .error ⟨.unexpected, "CDP command 'DOM.getDocument' timed out after 5s"⟩ := by
  intro number page root script
  have hDeep : Json.depthLimit ≤ 130 := by decide
  have hFault : (Failure.timeout "DOM.getDocument" 5).toFault =
      ⟨.unexpected, "CDP command 'DOM.getDocument' timed out after 5s"⟩ := by decide +kernel
  have hServed : (chain 63).ServedBy number foundInChain number page (fun _ => True) 130 () := by
    have hInjective : ∀ a ∈ (chain 63).names, ∀ b ∈ (chain 63).names, number a = number b → a = b := by
      decide +kernel
    have hZero : ∀ a ∈ (chain 63).names, number a ≠ 0 := by decide +kernel
    have hLast : 0 ∈ (chain 63).names := by decide +kernel
    have hFound : ∀ p ∈ (chain 63).names, ∀ scope, ∀ a ∈ foundInChain p scope, a ∈ (chain 63).names := by
      intro p _ scope a ha
      obtain rfl := List.mem_singleton.mp ha
      exact hLast
    have hDepth : root.nesting + 2 = 130 := by
      simp [root, nesting_render_chain]
    rw [← hDepth]
    exact servedBy_server hInjective hInjective hZero hFound
  have hRoom : 1 + 1 ≤ Word.limit := by decide
  have hReady {σ : Type} (s : σ) : ReadyFor 1 (· = s) (Dispatch.start, s) :=
    ⟨Dispatch.isIdle_start, hRoom, rfl⟩
  refine ⟨hServed, ?_, ?_⟩
  · rw [← hFault]
    exact elements_timeout hServed.document (fun _ _ hKind => hKind.1 ▸ hDeep) 5 (hReady ()) "*"
  · -- The endpoint sends the same message for the first command.
    have hSent : Endpoint.server.Answers (· = script) "DOM.getDocument"
        (.object [("depth", Talk.int (-1))]) (fun n _ => n = 130) fun _ => True := by
      rintro _ rfl id hId
      have hRegular : (Json.object [("root", root)]).IsRegular := by
        simp [Json.IsRegular, Json.FieldsRegular, root, isRegular_render]
      refine ⟨_, _, _, _, rfl, replied_replyText hId hRegular, ?_, trivial⟩
      simp [Json.nesting, Json.nestingFields, root, nesting_render_chain]
    have hOpen : (Endpoint.start script).StaysOpen := ⟨rfl, rfl, by simp [Endpoint.start, script]⟩
    have hStart : ((Endpoint.start script).dispatch, (Endpoint.start script).replies) =
        (Dispatch.start, script) := rfl
    rw [answer_of_staysOpen hOpen, hStart, ← hFault]
    exact elements_timeout hSent (fun _ _ hKind => hKind ▸ hDeep) 5 (hReady script) "*"

end NodeTree

end PageLogic.DevTools
