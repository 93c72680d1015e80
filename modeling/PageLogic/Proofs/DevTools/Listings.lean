import PageLogic.DevTools.Live
import PageLogic.Proofs.DevTools.Exchanges
/-!
How replies that list nodes are read. Of what is found below a node only the whole numbers are taken, so that
a reply without any is read as one that lists nothing: no search can tell a broken reply from a sound one.
-/
namespace PageLogic.DevTools

variable {σ α β : Type} {link : Link σ} {index : NodeIndex} {numbers : List Int}

/-! ### Listings -/

/-- The result has a list of nodes, in which every item is a whole number. -/
def ListsNodes (r : Json) : Prop :=
  ∃ items, (r.get? "nodeIds").bind Json.array? = some items ∧ ∀ item ∈ items, ∃ n, item.int? = some n

/-- The whole numbers in the list of nodes of a result. -/
def listed (r : Json) : List Int :=
  (((r.get? "nodeIds").bind Json.array?).map Talk.ints).getD []

/-- A result that lists these nodes, and nothing else. -/
def listing (numbers : List Int) : Json :=
  .object [("nodeIds", .array (numbers.map Talk.int))]

/-- What is left of a result if all but the numbers of nodes is taken away. -/
def tidied (r : Json) : Json :=
  listing (listed r)

theorem int?_int_of_int? {item : Json} {n : Int} (h : item.int? = some n) : (Talk.int n).int? = some n := by
  unfold Json.int? at h
  split at h
  · split at h <;> cases h
    next hWithin => simp [Talk.int, Json.int?, hWithin]
  · cases h

theorem exists_item_of_mem_listed {r : Json} {n : Int} (h : n ∈ listed r) :
    ∃ item : Json, item.int? = some n := by
  unfold listed at h
  cases hItems : (r.get? "nodeIds").bind Json.array? with
  | none => simp [hItems] at h
  | some items =>
      rw [hItems] at h
      obtain ⟨item, -, hItem⟩ := List.mem_filterMap.mp h
      exact ⟨item, hItem⟩

theorem ints_map_of_forall (h : ∀ n ∈ numbers, ∃ item : Json, item.int? = some n) :
    Talk.ints (numbers.map Talk.int) = numbers := by
  induction numbers with
  | nil => rfl
  | cons n rest ih =>
      obtain ⟨item, hItem⟩ := h n List.mem_cons_self
      rw [List.map_cons, Talk.ints, List.filterMap_cons_some (int?_int_of_int? hItem)]
      exact congrArg (n :: ·) (ih fun m hm => h m (List.mem_cons_of_mem n hm))

@[simp] theorem listed_tidied (r : Json) : listed (tidied r) = listed r :=
  ints_map_of_forall fun _ => exists_item_of_mem_listed

theorem listsNodes_tidied (r : Json) : ListsNodes (tidied r) := by
  refine ⟨_, rfl, fun item hItem => ?_⟩
  obtain ⟨n, hn, rfl⟩ := List.mem_map.mp hItem
  obtain ⟨item, hItem⟩ := exists_item_of_mem_listed hn
  exact ⟨n, int?_int_of_int? hItem⟩

/-- A result lists nodes exactly if no item is passed over when it is read. -/
theorem length_listed_eq_iff {r : Json} {items : List Json}
    (hItems : (r.get? "nodeIds").bind Json.array? = some items) :
    (listed r).length = items.length ↔ ListsNodes r := by
  have hListed : listed r = items.filterMap Json.int? := by
    rw [listed, hItems]
    rfl
  rw [hListed, List.length_filterMap_eq_countP, List.countP_eq_length]
  simp [ListsNodes, hItems, Option.isSome_iff_exists]

/-! ### Talks that overlook a change -/

namespace Talk

variable {method : String} {change : Json → Json}

/-- Whether a result of that command is changed makes no difference to how the talk goes on. -/
def Overlooks (method : String) (change : Json → Json) : Talk α → Prop
  | .value _ | .failure _ => True
  | .send m _ next =>
    (m = method → ∀ r, next (.ok (change r)) = next (.ok r)) ∧ ∀ r, (next r).Overlooks method change

theorem overlooks_ofExcept (r : Except Failure α) : (ofExcept r).Overlooks method change := by
  cases r <;> trivial

theorem overlooks_required (missing : String) (a : Option α) :
    (required missing a).Overlooks method change := by
  cases a <;> trivial

theorem overlooks_scriptValue (result : Json) : (scriptValue result).Overlooks method change := by
  unfold scriptValue
  split <;> trivial

theorem Overlooks.andThen {t : Talk α} (h : t.Overlooks method change) {f : α → Talk β}
    (hf : ∀ a, (f a).Overlooks method change) : (t.andThen f).Overlooks method change := by
  induction t with
  | value a => exact hf a
  | failure e => trivial
  | send m params next ih =>
      exact ⟨fun hm r => congrArg (Talk.andThen · f) (h.1 hm r), fun r => ih r (h.2 r)⟩

theorem Overlooks.attempt {t : Talk α} (h : t.Overlooks method change) {f : Except Failure α → Talk β}
    (hf : ∀ r, (f r).Overlooks method change) : (t.attempt f).Overlooks method change := by
  induction t with
  | value a => exact hf _
  | failure e => exact hf _
  | send m params next ih =>
      exact ⟨fun hm r => congrArg (Talk.attempt · f) (h.1 hm r), fun r => ih r (h.2 r)⟩

theorem Overlooks.map {t : Talk α} (h : t.Overlooks method change) (f : α → β) :
    (t.map f).Overlooks method change :=
  h.andThen fun _ => trivial

theorem overlooks_command {m : String} (hm : m ≠ method) (params : Json) :
    (command m params).Overlooks method change :=
  ⟨fun h => absurd h hm, overlooks_ofExcept⟩

end Talk

/-- The link with the results of one command changed. -/
def Link.changing (method : String) (change : Json → Json) (link : Link σ) : Link σ where
  exchange m params s :=
    let (r, s) := link.exchange m params s
    (if m = method then r.map change else r, s)

theorem Talk.Overlooks.run_changing {method : String} {change : Json → Json} {t : Talk α}
    (h : t.Overlooks method change) (link : Link σ) (s : σ) :
    t.run (link.changing method change) s = t.run link s := by
  induction t generalizing s with
  | value a => rfl
  | failure e => rfl
  | send m params next ih =>
      change (next (if m = method then _ else _)).run (link.changing method change) _ =
        (next (link.exchange m params s).1).run link _
      rw [ih _ (h.2 _)]
      split
      · next hm =>
          cases (link.exchange m params s).1 with
          | error e => rfl
          | ok r => rw [Except.map, h.1 hm]
      · rfl

/-! ### Questions overlook what is no number -/

/-- The talk goes on in the same way if all but the numbers is taken out of listings. -/
abbrev Tidy (t : Talk α) : Prop :=
  t.Overlooks "DOM.querySelectorAll" tidied

theorem tidy_querySelectorAll (node : Int) (scope : String) : Tidy (Talk.querySelectorAll node scope) := by
  refine ⟨fun _ r => ?_, fun r => (Talk.overlooks_ofExcept r).map _⟩
  exact congrArg Talk.value (listed_tidied r)

theorem tidy_fetch : Tidy NodeIndex.fetch :=
  ((Talk.overlooks_command (by decide) _).andThen fun _ => Talk.overlooks_required _ _).andThen
    fun _ => Talk.overlooks_ofExcept _

theorem tidy_handles (index : NodeIndex) (numbers : List Int) : Tidy (index.handles numbers) := by
  induction numbers with
  | nil => trivial
  | cons node rest ih =>
      rw [NodeIndex.handles]
      refine Talk.Overlooks.andThen ?_ fun backend => ih.map _
      split
      · trivial
      · exact (Talk.overlooks_command (by decide) _).andThen fun _ => Talk.overlooks_required _ _

theorem tidy_select (index : NodeIndex) (node : Int) (scope : String) : Tidy (select index node scope) :=
  (tidy_querySelectorAll node scope).andThen (tidy_handles index)

theorem tidy_callOn (e : Handle) (function : String) (arguments : List Json) :
    Tidy (callOn e function arguments) := by
  unfold callOn
  split
  · trivial
  · refine ((Talk.overlooks_command (by decide) _).andThen fun _ => Talk.overlooks_required _ _).andThen
      fun object => ?_
    refine Talk.Overlooks.attempt ?_ fun result => ?_
    · exact (Talk.overlooks_command (by decide) _).andThen Talk.overlooks_scriptValue
    · exact ((Talk.overlooks_command (by decide) _).map _).attempt fun _ => (Talk.overlooks_ofExcept _).map _

theorem tidy_evaluateString (expression : String) : Tidy (evaluateString expression) :=
  ((Talk.overlooks_command (by decide) _).andThen Talk.overlooks_scriptValue).map _

theorem tidy_ask (q : Question) : Tidy (ask q) := by
  cases q with
  | elements scope => exact tidy_fetch.andThen fun index => (tidy_select _ _ scope).map _
  | descendants parent scope =>
      rw [ask]
      split
      · trivial
      · refine tidy_fetch.andThen fun index => ?_
        refine ((Talk.overlooks_command (by decide) _).andThen fun _ => Talk.overlooks_required _ _).andThen
          fun pushed => ?_
        split
        · trivial
        · split
          · trivial
          · exact (tidy_select _ _ scope).map _
  | title | currentUrl => exact tidy_evaluateString _
  | _ => exact (tidy_callOn _ _ _).map _

/-- No question is answered in another way if all but the numbers is taken out of listings. -/
theorem answer_tidied (link : Link σ) (q : Question) (s : σ) :
    (oracle (link.changing "DOM.querySelectorAll" tidied)).answer q s = (oracle link).answer q s := by
  simp only [oracle, (tidy_ask q).run_changing]

/-! ### Enumerations -/

/-- The elements of the page that a selector matches, or those below a parent. -/
def enumerate (link : Link σ) (parent : Option Handle) (scope : String) (s : σ) :
    Except Fault (List Handle) × σ :=
  match parent with
  | none => (oracle link).answer (.elements scope) s
  | some parent => (oracle link).answer (.descendants parent scope) s

/-- The first part of an enumeration: the nodes of the document, and the node below which is sought. -/
def locate : (parent : Option Handle) → Talk (Except Fault (NodeIndex × Int))
  | none => NodeIndex.fetch.map fun index => .ok (index, index.root)
  | some parent =>
    match backendId parent with
    | .error e => .value (.error e)
    | .ok backend =>
      NodeIndex.fetch.andThen fun index =>
        (Talk.pushNodes [backend]).map fun pushed =>
          match pushed with
          | [] => .error ⟨.invalidElementState, parent.display ++ " is no longer in the document"⟩
          | node :: _ =>
            if node = 0 then
              .error ⟨.invalidElementState, parent.display ++ " is no longer in the document"⟩
            else .ok (index, node)

/-- The second part of an enumeration: what the selector matches below the node. -/
def seek (scope : String) : Except Fault (NodeIndex × Int) → Talk (Except Fault (List Handle))
  | .error e => .value (.error e)
  | .ok (index, node) => (select index node scope).map .ok

def selectCommand (node : Int) (scope : String) : String × Json :=
  ("DOM.querySelectorAll", .object [("nodeId", Talk.int node), ("selector", .string scope)])

variable {parent : Option Handle} {scope : String} {node : Int} {s s' s'' : σ}

theorem ask_elements (scope : String) : ask (.elements scope) = (locate none).andThen (seek scope) := by
  rw [locate, Talk.map, Talk.andThen_assoc]
  rfl

theorem ask_descendants (parent : Handle) (scope : String) :
    ask (.descendants parent scope) = (locate (some parent)).andThen (seek scope) := by
  rw [ask, locate]
  cases backendId parent with
  | error e => rfl
  | ok backend =>
      simp only [Talk.map, Talk.andThen_assoc]
      congr 1
      funext index
      congr 1
      funext pushed
      cases pushed with
      | nil => rfl
      | cons node rest => by_cases hGone : node = 0 <;> simp [hGone, Talk.andThen, seek, Talk.map]

theorem enumerate_of_located (scope : String)
    (hLocated : (locate parent).run link s = (.ok (.ok (index, node)), s')) :
    enumerate link parent scope s =
      match (select index node scope).run link s' with
      | (.ok hs, s) => (.ok hs, s)
      | (.error f, s) => (.error f.toFault, s) := by
  cases parent with
  | none =>
      simp only [enumerate, oracle, ask_elements, Talk.run_andThen, hLocated, seek, Talk.run_map]
      generalize (select index node scope).run link s' = selected
      obtain ⟨_ | _, _⟩ := selected <;> rfl
  | some parent =>
      simp only [enumerate, oracle, ask_descendants, Talk.run_andThen, hLocated, seek, Talk.run_map]
      generalize (select index node scope).run link s' = selected
      obtain ⟨_ | _, _⟩ := selected <;> rfl

/-- The handles of nodes that are all known are told without another command. -/
theorem run_handles_of_known {backend : Int → Int} (h : ∀ n ∈ numbers, index.lookup n = some (backend n)) :
    (index.handles numbers).run link s = (.ok (numbers.map fun n => handle (backend n)), s) := by
  induction numbers with
  | nil => rfl
  | cons node rest ih =>
      rw [NodeIndex.handles, h node List.mem_cons_self]
      simp only [Talk.andThen, Talk.run_map, ih fun n hn => h n (List.mem_cons_of_mem node hn)]
      rfl

/-- There is one handle for each number. -/
theorem length_of_run_handles {handles : List Handle}
    (h : ((index.handles numbers).run link s).1 = .ok handles) : handles.length = numbers.length := by
  induction numbers generalizing handles s with
  | nil =>
      cases h
      rfl
  | cons node rest ih =>
      rw [NodeIndex.handles, Talk.run_andThen] at h
      split at h
      · next backend s' _ =>
          rw [Talk.run_map] at h
          cases hRest : ((index.handles rest).run link s').1 with
          | error f => simp [hRest, Except.map] at h
          | ok others =>
              rw [hRest] at h
              cases h
              simp [ih hRest]
      · cases h

theorem run_select {r : Json}
    (hReply : link.exchange (selectCommand node scope).1 (selectCommand node scope).2 s = (.ok r, s')) :
    (select index node scope).run link s = (index.handles (listed r)).run link s' := by
  have hCommand : (Talk.querySelectorAll node scope).run link s = (.ok (listed r), s') := by
    rw [Talk.querySelectorAll, Talk.run_map, Talk.run_command]
    simp only [selectCommand] at hReply
    rw [hReply]
    rfl
  rw [select, Talk.run_andThen, hCommand]

/-- A listing that is broken is read as the sound one with the same numbers. Once an enumeration has found
the node below which it seeks, the numbers in the reply are all that counts: each of them gives a handle, what
else is listed is passed over without a fault, and a reply without numbers gives an empty answer. -/
theorem listings_are_read_loosely (link : Link σ) (parent : Option Handle) (scope : String) (s : σ)
    (index : NodeIndex) (node : Int) (s' : σ)
    (hLocated : (locate parent).run link s = (.ok (.ok (index, node)), s')) (r : Json) (s'' : σ)
    (hReply : link.exchange (selectCommand node scope).1 (selectCommand node scope).2 s' = (.ok r, s'')) :
    (ListsNodes (tidied r) ∧ enumerate (link.changing (selectCommand node scope).1 tidied) parent scope s =
        enumerate link parent scope s) ∧
      (∀ handles, (enumerate link parent scope s).1 = .ok handles → handles.length = (listed r).length ∧
        ∀ items, (r.get? "nodeIds").bind Json.array? = some items →
          (handles.length = items.length ↔ ListsNodes r)) ∧
      ∀ backend : Int → Int, (∀ n ∈ listed r, index.lookup n = some (backend n)) →
        enumerate link parent scope s = (.ok ((listed r).map fun n => handle (backend n)), s'') := by
  have hAnswer := enumerate_of_located scope hLocated
  rw [run_select hReply] at hAnswer
  refine ⟨⟨listsNodes_tidied r, ?_⟩, fun handles hOk => ?_, fun backend hKnown => ?_⟩
  · cases parent with
    | none => exact answer_tidied link _ s
    | some parent => exact answer_tidied link _ s
  · rw [hAnswer] at hOk
    generalize hRun : (index.handles (listed r)).run link s'' = ran at hOk
    obtain ⟨f | found, s⟩ := ran <;> cases hOk
    have hLength := length_of_run_handles (congrArg Prod.fst hRun)
    exact ⟨hLength, fun items hItems => hLength ▸ length_listed_eq_iff hItems⟩
  · rw [hAnswer, run_handles_of_known hKnown]

/-- A page of two elements that, asked for elements, replies with `r` whatever the selector is. -/
def replying (r : Json) : Link Unit where
  exchange method _ s :=
    (if method = "DOM.getDocument" then
      .ok (.object [("root", .object [("nodeId", Talk.int 1), ("backendNodeId", Talk.int 11), ("children",
        .array [.object [("nodeId", Talk.int 2), ("backendNodeId", Talk.int 12)]])])])
    else if method = "DOM.pushNodesByBackendIdsToFrontend" then .ok (listing [1])
    else .ok r, s)

/-- What is no number is passed over: of three items, two give handles. -/
theorem listings_are_read_loosely_mixed :
    let r : Json := .object [("nodeIds", .array [Talk.int 1, .string "x", Talk.int 2])]
    ¬ ListsNodes r ∧ (enumerate (replying r) none "*" ()).1 = .ok [handle 11, handle 12] := by
  intro r
  constructor
  · rintro ⟨items, hItems, hAll⟩
    cases hItems
    obtain ⟨n, hn⟩ := hAll (.string "x") (by simp)
    cases hn
  · have hLoose := (listings_are_read_loosely (replying r) none "*" () ⟨1, [(2, 12), (1, 11)]⟩ 1 ()
      rfl r () rfl).2.2 (fun n => n + 10) (by decide)
    rw [hLoose]
    rfl

/-- A reply that lists no nodes is not refused, but read as an empty page and as an element without others
below it. -/
theorem broken_listing_is_empty :
    ¬ ListsNodes (.object []) ∧
      enumerate (replying (.object [])) none "*" () = (.ok [], ()) ∧
      enumerate (replying (.object [])) (some (handle 11)) "*" () = (.ok [], ()) :=
  ⟨nofun, rfl, rfl⟩

end PageLogic.DevTools
