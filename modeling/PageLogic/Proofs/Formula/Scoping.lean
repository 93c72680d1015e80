import PageLogic.Proofs.Relation.Traffic
/-!
Scopes are lexical. An override holds for what is written inside of it, however often and however late
that is begun: a goal under an override is the goal whose relations stand under it one by one. So a
formula can be written with no override but one directly around each relation, and the main statement
says that this changes neither the items nor the questions, in whatever order and however many are
pulled.
-/
namespace PageLogic

/-! ### Overrides -/

namespace Scope

/-- One override with the effect of several, the outermost first. For each selector the innermost
override that names it counts. -/
def Override.composed (path : List Override) : Override :=
  ⟨path.reverse.findSome? (·.root), path.reverse.findSome? (·.child)⟩

theorem Override.composed_append (path : List Override) (o : Override) :
    composed (path ++ [o]) = (composed path).followedBy o := by
  obtain ⟨root, child⟩ := o
  simp only [composed, List.reverse_append, List.reverse_singleton, List.singleton_append,
    List.findSome?_cons, followedBy]
  cases root <;> cases child <;> rfl

end Scope

namespace Goal

variable {o o' : Scope.Override} {g h : Goal}

theorem withScope_withScope (o o' : Scope.Override) (g : Goal) :
    withScope o (withScope o' g) = withScope (o.followedBy o') g := by
  funext c b
  simp only [withScope, Scope.overridden_followedBy]

theorem withScope_conj (o : Scope.Override) (g h : Goal) :
    withScope o (g.conj h) = (withScope o g).conj (withScope o h) :=
  rfl

theorem withScope_disj (o : Scope.Override) (g h : Goal) :
    withScope o (g.disj h) = (withScope o g).disj (withScope o h) :=
  rfl

theorem withScope_foldl_conj (o : Scope.Override) (g : Goal) (gs : List Goal) :
    withScope o (gs.foldl conj g) = (gs.map (withScope o)).foldl conj (withScope o g) := by
  induction gs generalizing g with
  | nil => rfl
  | cons h rest ih =>
      rw [List.foldl_cons, ih, withScope_conj, List.map_cons, List.foldl_cons]

theorem withScope_conjAll (o : Scope.Override) (gs : List Goal) :
    withScope o (conjAll gs) = conjAll (gs.map (withScope o)) := by
  cases gs with
  | nil => rfl
  | cons g rest => exact withScope_foldl_conj o g rest

theorem withScope_disjAll (o : Scope.Override) (gs : List Goal) :
    withScope o (disjAll gs) = disjAll (gs.map (withScope o)) := by
  induction gs with
  | nil => rfl
  | cons g rest ih =>
      cases rest with
      | nil => rfl
      | cons h rest =>
          rw [disjAll, withScope_disj, ih]
          · rfl
          · simp

end Goal

namespace Formula

/-! ### Overrides at the leaves -/

mutual

/-- The formula with its overrides taken away, and each relation under one that is composed of those
that stood around it. The overrides of `path` stand around the formula itself. -/
def lowered (path : List Scope.Override) : Formula → Formula
  | .succeed => .succeed
  | .fail => .fail
  | .eq t u => .eq t u
  | .conj g h => .conj (g.lowered path) (h.lowered path)
  | .disj g h => .disj (g.lowered path) (h.lowered path)
  | .conjAll gs => .conjAll (loweredAll path gs)
  | .disjAll gs => .disjAll (loweredAll path gs)
  | .fresh x g => .fresh x (g.lowered path)
  | .fresh2 x y g => .fresh2 x y (g.lowered path)
  | .once g => .once (g.lowered path)
  | .memberOf t values => .memberOf t values
  | .unary r t => .withScope (.composed path) (.unary r t)
  | .binary r t u => .withScope (.composed path) (.binary r t u)
  | .carries e n v => .withScope (.composed path) (.carries e n v)
  | .withScope o g => g.lowered (path ++ [o])

def loweredAll (path : List Scope.Override) : List Formula → List Formula
  | [] => []
  | g :: rest => g.lowered path :: loweredAll path rest

end

mutual

/-- The formula with its overrides taken away. -/
def bare : Formula → Formula
  | .succeed => .succeed
  | .fail => .fail
  | .eq t u => .eq t u
  | .conj g h => .conj g.bare h.bare
  | .disj g h => .disj g.bare h.bare
  | .conjAll gs => .conjAll (bareAll gs)
  | .disjAll gs => .disjAll (bareAll gs)
  | .fresh x g => .fresh x g.bare
  | .fresh2 x y g => .fresh2 x y g.bare
  | .once g => .once g.bare
  | .memberOf t values => .memberOf t values
  | .unary r t => .unary r t
  | .binary r t u => .binary r t u
  | .carries e n v => .carries e n v
  | .withScope _ g => g.bare

def bareAll : List Formula → List Formula
  | [] => []
  | g :: rest => g.bare :: bareAll rest

end

mutual

/-- The relations of the formula from left to right, each with the overrides on the way to it, the
outermost first. -/
def leaves (path : List Scope.Override) : Formula → List (List Scope.Override × Formula)
  | .succeed | .fail | .eq _ _ | .memberOf _ _ => []
  | .conj g h => g.leaves path ++ h.leaves path
  | .disj g h => g.leaves path ++ h.leaves path
  | .conjAll gs => leavesAll path gs
  | .disjAll gs => leavesAll path gs
  | .fresh _ g => g.leaves path
  | .fresh2 _ _ g => g.leaves path
  | .once g => g.leaves path
  | .unary r t => [(path, .unary r t)]
  | .binary r t u => [(path, .binary r t u)]
  | .carries e n v => [(path, .carries e n v)]
  | .withScope o g => g.leaves (path ++ [o])

def leavesAll (path : List Scope.Override) : List Formula → List (List Scope.Override × Formula)
  | [] => []
  | g :: rest => g.leaves path ++ leavesAll path rest

end

mutual

/-- Nothing else about the formula changes. -/
theorem bare_lowered (path : List Scope.Override) : ∀ g : Formula, (g.lowered path).bare = g.bare
  | .succeed | .fail | .eq _ _ | .memberOf _ _ | .unary _ _ | .binary _ _ _ | .carries _ _ _ => by
    simp only [lowered, bare]
  | .conj g h | .disj g h => by
    simp only [lowered, bare, bare_lowered path g, bare_lowered path h]
  | .conjAll gs | .disjAll gs => by simp only [lowered, bare, bareAll_lowered path gs]
  | .fresh _ g | .fresh2 _ _ g | .once g => by simp only [lowered, bare, bare_lowered path g]
  | .withScope o g => by simp only [lowered, bare, bare_lowered (path ++ [o]) g]

theorem bareAll_lowered (path : List Scope.Override) :
    ∀ gs : List Formula, bareAll (loweredAll path gs) = bareAll gs
  | [] => rfl
  | g :: rest => by
    simp only [loweredAll, bareAll, bare_lowered path g, bareAll_lowered path rest]

end

/-- A relation under one override, composed of all that stood around it. -/
def underOne (leaf : List Scope.Override × Formula) : List Scope.Override × Formula :=
  ([.composed leaf.1], leaf.2)

mutual

/-- Every relation stands in one override, which is composed of those that stood around it. -/
theorem leaves_lowered (path : List Scope.Override) :
    ∀ g : Formula, (g.lowered path).leaves [] = (g.leaves path).map underOne
  | .succeed | .fail | .eq _ _ | .memberOf _ _ | .unary _ _ | .binary _ _ _ | .carries _ _ _ => by
    simp only [lowered, leaves, underOne, List.map_nil, List.map_cons, List.nil_append]
  | .conj g h | .disj g h => by
    simp only [lowered, leaves, leaves_lowered path g, leaves_lowered path h, List.map_append]
  | .conjAll gs | .disjAll gs => by simp only [lowered, leaves, leavesAll_lowered path gs]
  | .fresh _ g | .fresh2 _ _ g | .once g => by simp only [lowered, leaves, leaves_lowered path g]
  | .withScope o g => by simp only [lowered, leaves, leaves_lowered (path ++ [o]) g]

theorem leavesAll_lowered (path : List Scope.Override) :
    ∀ gs : List Formula, leavesAll [] (loweredAll path gs) = (leavesAll path gs).map underOne
  | [] => rfl
  | g :: rest => by
    simp only [loweredAll, leavesAll, leaves_lowered path g, leavesAll_lowered path rest,
      List.map_append]

end

mutual

/-- The goal of the lowered formula is the goal of the formula under the overrides of the path. -/
theorem goal_lowered (path : List Scope.Override) :
    ∀ (g : Formula) (ρ : Valuation),
      (g.lowered path).goal ρ = Goal.withScope (.composed path) (g.goal ρ)
  | .succeed, _ | .fail, _ | .eq _ _, _ | .memberOf _ _, _ => rfl
  | .unary _ _, _ | .binary _ _ _, _ | .carries _ _ _, _ => rfl
  | .conj g h, ρ => by
    rw [lowered, goal, goal, goal_lowered path g, goal_lowered path h, Goal.withScope_conj]
  | .disj g h, ρ => by
    rw [lowered, goal, goal, goal_lowered path g, goal_lowered path h, Goal.withScope_disj]
  | .conjAll gs, ρ => by
    rw [lowered, goal, goal, goals_lowered path gs, Goal.withScope_conjAll]
  | .disjAll gs, ρ => by
    rw [lowered, goal, goal, goals_lowered path gs, Goal.withScope_disjAll]
  | .fresh x g, ρ => by
    simp only [lowered, goal, goal_lowered path g]
    rfl
  | .fresh2 x y g, ρ => by
    simp only [lowered, goal, goal_lowered path g]
    rfl
  | .once g, ρ => by
    rw [lowered, goal, goal, goal_lowered path g]
    rfl
  | .withScope o g, ρ => by
    rw [lowered, goal, goal_lowered (path ++ [o]) g, Scope.Override.composed_append,
      Goal.withScope_withScope]

theorem goals_lowered (path : List Scope.Override) :
    ∀ (gs : List Formula) (ρ : Valuation),
      goals (loweredAll path gs) ρ = (goals gs ρ).map (Goal.withScope (.composed path))
  | [], _ => rfl
  | g :: rest, ρ => by
    rw [loweredAll, goals, goals, List.map_cons, goal_lowered path g, goals_lowered path rest]

end

end Formula

/-! ### Where questions come from -/

namespace Goal

variable {P Q : Question → Prop} {c : Context} {g h : Goal} {gs : List Goal}

/-- Every question of the goal satisfies `P`, on whatever branch and however late it is begun. -/
def Asks (P : Question → Prop) (c : Context) (g : Goal) : Prop :=
  ∀ b, (g c b).Asks P

theorem Asks.mono (hg : g.Asks P c) (hPQ : ∀ q, P q → Q q) : g.Asks Q c :=
  fun b => (hg b).mono hPQ

theorem Asks.conj (hg : g.Asks P c) (hh : h.Asks P c) : (g.conj h).Asks P c :=
  fun b => (hg b).bind hh

theorem Asks.disj (hg : g.Asks P c) (hh : h.Asks P c) : (g.disj h).Asks P c :=
  fun b => (hg b).append (hh b)

theorem Asks.foldl_conj (hg : g.Asks P c) (h : ∀ g ∈ gs, g.Asks P c) :
    (gs.foldl Goal.conj g).Asks P c := by
  induction gs generalizing g with
  | nil => exact hg
  | cons h' rest ih =>
      obtain ⟨hHead, hRest⟩ := List.forall_mem_cons.mp h
      exact ih (hg.conj hHead) hRest

theorem asks_conjAll (h : ∀ g ∈ gs, g.Asks P c) : (conjAll gs).Asks P c := by
  cases gs with
  | nil => exact fun _ => trivial
  | cons g rest =>
      obtain ⟨hHead, hRest⟩ := List.forall_mem_cons.mp h
      exact hHead.foldl_conj hRest

theorem asks_disjAll (h : ∀ g ∈ gs, g.Asks P c) : (disjAll gs).Asks P c := by
  induction gs with
  | nil => exact fun _ => trivial
  | cons g rest ih =>
      obtain ⟨hHead, hRest⟩ := List.forall_mem_cons.mp h
      cases rest with
      | nil => exact hHead
      | cons h' rest => exact hHead.disj (ih hRest)

end Goal

namespace Formula

variable {s : Scope} {ls ms : List (List Scope.Override × Formula)} {q : Question}

/-- The question can be asked for this relation in this scope. What a relation enumerates is bounded by
the scope; a property may ask more when it is read. -/
def AsksIn (s : Scope) (q : Question) : Formula → Prop
  | .binary (.property p) _ _ => q.IsWithin s ∨ ∃ e, (p e).CanAsk q
  | _ => q.IsWithin s

/-- The question is asked for one of the relations, in the scope that the overrides around it make of
the outer one. -/
def AskedFor (ls : List (List Scope.Override × Formula)) (s : Scope) (q : Question) : Prop :=
  ∃ leaf ∈ ls, leaf.2.AsksIn (s.overridden (.composed leaf.1)) q

theorem AskedFor.left (ms : List (List Scope.Override × Formula)) (h : AskedFor ls s q) :
    AskedFor (ls ++ ms) s q := by
  obtain ⟨leaf, hLeaf, hAsks⟩ := h
  exact ⟨leaf, List.mem_append_left ms hLeaf, hAsks⟩

theorem AskedFor.right (ls : List (List Scope.Override × Formula)) (h : AskedFor ms s q) :
    AskedFor (ls ++ ms) s q := by
  obtain ⟨leaf, hLeaf, hAsks⟩ := h
  exact ⟨leaf, List.mem_append_right ls hLeaf, hAsks⟩

/-- A relation asks for itself, in the scope that it is given. -/
theorem asks_leaf {path : List Scope.Override} {leaf : Formula} {g : Goal} {c : Context}
    (h : g.Asks (AsksIn (c.scope.overridden (.composed path)) · leaf)
      ⟨c.scope.overridden (.composed path)⟩) :
    g.Asks (AskedFor [(path, leaf)] c.scope) ⟨c.scope.overridden (.composed path)⟩ :=
  h.mono fun _ hq => ⟨(path, leaf), List.mem_singleton_self _, hq⟩

mutual

/-- Every question of a formula is asked for one of its relations, in the scope of that relation. -/
theorem asks_goal (path : List Scope.Override) (c : Context) :
    ∀ (g : Formula) (ρ : Valuation),
      (g.goal ρ).Asks (AskedFor (g.leaves path) c.scope) ⟨c.scope.overridden (.composed path)⟩
  | .succeed, _ | .fail, _ => fun _ => trivial
  | .eq _ _, _ => fun _ => .ofOption _
  | .memberOf _ _, _ => fun _ => .each fun _ => .ofOption _
  | .unary r t, ρ => asks_leaf fun b => r.asks (t.replace ρ) _ b
  | .binary r t u, ρ => by
    refine asks_leaf fun b => (r.asks (t.replace ρ) (u.replace ρ) _ b).mono fun q hq => ?_
    cases r with
    | property p =>
        refine hq.imp_right ?_
        rintro ⟨_, ⟨⟩, e, he⟩
        exact ⟨e, he⟩
    | _ => exact hq.resolve_right fun ⟨_, h, _⟩ => nomatch h
  | .carries e n v, ρ =>
    asks_leaf fun b =>
      have hRoot : (Question.elements (c.scope.overridden (.composed path)).root).IsWithin
          (c.scope.overridden (.composed path)) := rfl
      Relation.asks_carries hRoot (fun _ _ => trivial) (e.replace ρ) (n.replace ρ) (v.replace ρ) b
  | .conj g h, ρ =>
    ((asks_goal path c g ρ).mono fun _ hq => hq.left _).conj
      ((asks_goal path c h ρ).mono fun _ hq => hq.right _)
  | .disj g h, ρ =>
    ((asks_goal path c g ρ).mono fun _ hq => hq.left _).disj
      ((asks_goal path c h ρ).mono fun _ hq => hq.right _)
  | .conjAll gs, ρ => Goal.asks_conjAll (asks_goals path c gs ρ)
  | .disjAll gs, ρ => Goal.asks_disjAll (asks_goals path c gs ρ)
  | .fresh _ g, ρ => fun b => asks_goal path c g _ b.fresh.2
  | .fresh2 _ _ g, ρ => fun b => asks_goal path c g _ b.fresh.2.fresh.2
  | .once g, ρ => fun b => (asks_goal path c g ρ b).first
  | .withScope o g, ρ => fun b => by
    have hInner := asks_goal (path ++ [o]) c g ρ b
    rw [Scope.Override.composed_append, Scope.overridden_followedBy] at hInner
    exact hInner

theorem asks_goals (path : List Scope.Override) (c : Context) :
    ∀ (gs : List Formula) (ρ : Valuation), ∀ G ∈ goals gs ρ,
      G.Asks (AskedFor (leavesAll path gs) c.scope) ⟨c.scope.overridden (.composed path)⟩
  | [], _ => by simp [goals]
  | g :: rest, ρ => by
    rw [goals, leavesAll]
    exact List.forall_mem_cons.mpr ⟨(asks_goal path c g ρ).mono fun _ hq => hq.left _,
      fun G hG => (asks_goals path c rest ρ G hG).mono fun _ hq => hq.right _⟩

end

/-- Overrides are lexical. With every relation under the one override that is composed of those around
it, and no other overrides, a formula delivers the same items and asks the same questions, however many
items are pulled; and it asks each of them for one of its relations, in the scope that the overrides
around this relation make of the outer one. -/
theorem lowered_pullsTo_eq {σ : Type} (g : Formula) (ρ : Valuation) (o : Oracle σ) (c : Context)
    (b : Branch) (state : σ) :
    (g.lowered []).bare = g.bare ∧
      (g.lowered []).leaves [] = (g.leaves []).map underOne ∧
      ∀ n,
        ((g.lowered []).goal ρ c b).pullsTo o.recording n (.of (state, [])) =
          (g.goal ρ c b).pullsTo o.recording n (.of (state, [])) ∧
        ∀ q ∈ ((g.goal ρ c b).pullsTo o.recording n (.of (state, []))).2.state.2,
          AskedFor (g.leaves []) c.scope q := by
  refine ⟨bare_lowered [] g, leaves_lowered [] g, fun n => ⟨?_, ?_⟩⟩
  · rw [goal_lowered]
    rfl
  · exact (asks_goal [] c g ρ b).pullsTo n (by simp [World.of])

/-- With an override around its first part only, the second part of a conjunction asks in the outer
scope, though it is resumed from the answer of the first. -/
theorem lowered_pullsTo_eq_conj :
    let beneath : Formula := .binary .childOf (.element ⟨"1"⟩) (.element ⟨"0"⟩)
    let g : Formula := .conj (.withScope ⟨none, some "p"⟩ beneath) beneath
    let o : Oracle Unit := ⟨fun q s =>
      (match q with
        | .descendants _ _ => .ok [⟨"1"⟩]
        | _ => .error ⟨.unknownServer, ""⟩, s)⟩
    let pulled := (g.goal Term.var ⟨.everything⟩ (.start 0)).pullsTo o.recording 1 (.of ((), []))
    pulled.1.length = 1 ∧
      pulled.2.state.2 = [.descendants ⟨"0"⟩ "p", .descendants ⟨"0"⟩ "*"] ∧
      ∀ q ∈ pulled.2.state.2, AskedFor (g.leaves []) .everything q := by
  intro beneath g o pulled
  refine ⟨by decide +kernel, by decide +kernel, ?_⟩
  exact ((lowered_pullsTo_eq g Term.var o ⟨.everything⟩ (.start 0) ()).2.2 1).2

end Formula

end PageLogic
