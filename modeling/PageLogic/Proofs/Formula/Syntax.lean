import PageLogic.Proofs.Goal.Expression
import PageLogic.Relation.Attribute
import PageLogic.Relation.Descent
import PageLogic.Relation.Page
/-!
Formulas, and what they say. A formula stands for a goal once its names have terms. Read as a list of
conditions on the values of its names, a formula that stays clear of scopes and of `once` is
determined by the facts of the page; `Formula.Plain.expresses` says that its goal expresses these
conditions.
-/
namespace PageLogic

/-- The relations with one argument. -/
inductive Unary where
  | displayed
  | enabled
  | attached
  | present
  | selected
  | visible
  | title
  | currentUrl
  | knownTag
  | knownAttribute

def Unary.goal : Unary → Term → Goal
  | .displayed => Relation.displayed
  | .enabled => Relation.enabled
  | .attached => Relation.attached
  | .present => Relation.present
  | .selected => Relation.selected
  | .visible => Relation.visible
  | .title => Relation.title
  | .currentUrl => Relation.currentUrl
  | .knownTag => Relation.knownTag
  | .knownAttribute => Relation.knownAttribute

/-- The relations with two arguments. -/
inductive Binary where
  | tag
  | text
  | size
  | location
  | childOf
  /-- An element and its attribute of this name. -/
  | attributeOf (name : String)
  | property (p : Relation.Property)

def Binary.goal : Binary → Term → Term → Goal
  | .tag => Relation.tag
  | .text => Relation.text
  | .size => Relation.size
  | .location => Relation.location
  | .childOf => Relation.childOf
  | .attributeOf name => fun element value => Relation.carries element (.str name) value
  | .property p => Relation.ofProperty p

/-- Goals written down. Variables are names here; `fresh` and `fresh2` bind theirs. -/
inductive Formula where
  | succeed
  | fail
  | eq (t u : Term)
  | conj (g h : Formula)
  | disj (g h : Formula)
  | conjAll (gs : List Formula)
  | disjAll (gs : List Formula)
  | fresh (x : Var) (g : Formula)
  | fresh2 (x y : Var) (g : Formula)
  | once (g : Formula)
  | memberOf (t : Term) (values : List Term)
  | unary (r : Unary) (t : Term)
  | binary (r : Binary) (t u : Term)
  /-- An element, the name of an attribute and its value. -/
  | carries (element name value : Term)
  | withScope (o : Scope.Override) (g : Formula)

/-- What relations hold of: for each the values of its arguments. -/
structure Facts where
  unary : Unary → List Term
  binary : Binary → List (Term × Term)

/-- What a formula may be written with. -/
structure Fragment where
  unary : Unary → Prop
  binary : Binary → Prop
  /-- The leaves of its terms, names apart. -/
  constant : Term → Prop

namespace Formula

mutual

/-- The goal of a formula when every name stands for a term. -/
def goal : Formula → Valuation → Goal
  | .succeed, _ => .succeed
  | .fail, _ => .fail
  | .eq t u, ρ => .eq (t.replace ρ) (u.replace ρ)
  | .conj g h, ρ => (g.goal ρ).conj (h.goal ρ)
  | .disj g h, ρ => (g.goal ρ).disj (h.goal ρ)
  | .conjAll gs, ρ => .conjAll (goals gs ρ)
  | .disjAll gs, ρ => .disjAll (goals gs ρ)
  | .fresh x g, ρ => .fresh fun t => g.goal (Function.update ρ x t)
  | .fresh2 x y g, ρ =>
    .fresh2 fun t u => g.goal (Function.update (Function.update ρ x t) y u)
  | .once g, ρ => .once (g.goal ρ)
  | .memberOf t values, ρ => .memberOf (t.replace ρ) (values.map (Term.replace ρ))
  | .unary r t, ρ => r.goal (t.replace ρ)
  | .binary r t u, ρ => r.goal (t.replace ρ) (u.replace ρ)
  | .carries e n v, ρ => Relation.carries (e.replace ρ) (n.replace ρ) (v.replace ρ)
  | .withScope o g, ρ => .withScope o (g.goal ρ)

def goals : List Formula → Valuation → List Goal
  | [], _ => []
  | g :: rest, ρ => g.goal ρ :: goals rest ρ

end

mutual

/-- The ways in which a formula can hold, as conditions on the values of its names. Scopes, `once`
and attributes of unknown name are no part of this reading. -/
def conditions (F : Facts) : Formula → List Condition
  | .succeed => [fun _ => True]
  | .eq t u => [fun v => t.replace v = u.replace v]
  | .conj g h => Branch.both (g.conditions F) (h.conditions F)
  | .disj g h => g.conditions F ++ h.conditions F
  | .conjAll gs => Goal.bothAll (conditionsOf F gs)
  | .disjAll gs => (conditionsOf F gs).flatten
  | .fresh x g => (g.conditions F).map fun A v => ∃ t, A (Function.update v x t)
  | .fresh2 x y g =>
    (g.conditions F).map fun A v => ∃ t u, A (Function.update (Function.update v x t) y u)
  | .memberOf t values => values.map fun u v => t.replace v = u.replace v
  | .unary r t => (F.unary r).map fun a v => t.replace v = a
  | .binary r t u => (F.binary r).map fun row v => t.replace v = row.1 ∧ u.replace v = row.2
  | .fail | .once _ | .carries _ _ _ | .withScope _ _ => []

def conditionsOf (F : Facts) : List Formula → List (List Condition)
  | [] => []
  | g :: rest => g.conditions F :: conditionsOf F rest

end

theorem goals_eq (gs : List Formula) (ρ : Valuation) : goals gs ρ = gs.map fun g => g.goal ρ := by
  induction gs with
  | nil => rfl
  | cons g rest ih => rw [goals, ih, List.map_cons]

theorem conditionsOf_eq (F : Facts) (gs : List Formula) :
    conditionsOf F gs = gs.map (conditions F) := by
  induction gs with
  | nil => rfl
  | cons g rest ih => rw [conditionsOf, ih, List.map_cons]

/-- Formulas of a fragment, with free names in `S`. -/
inductive Plain (L : Fragment) : (Var → Prop) → Formula → Prop where
  | succeed {S : Var → Prop} : Plain L S .succeed
  | fail {S : Var → Prop} : Plain L S .fail
  | eq {S : Var → Prop} {t u : Term} (ht : t.Built S L.constant) (hu : u.Built S L.constant) :
      Plain L S (.eq t u)
  | conj {S : Var → Prop} {g h : Formula} (hg : Plain L S g) (hh : Plain L S h) :
      Plain L S (.conj g h)
  | disj {S : Var → Prop} {g h : Formula} (hg : Plain L S g) (hh : Plain L S h) :
      Plain L S (.disj g h)
  | conjAll {S : Var → Prop} {gs : List Formula} (h : ∀ g ∈ gs, Plain L S g) : Plain L S (.conjAll gs)
  | disjAll {S : Var → Prop} {gs : List Formula} (h : ∀ g ∈ gs, Plain L S g) : Plain L S (.disjAll gs)
  | fresh {S : Var → Prop} {x : Var} {g : Formula} (hg : Plain L (fun y => y = x ∨ S y) g) :
      Plain L S (.fresh x g)
  | fresh2 {S : Var → Prop} {x y : Var} {g : Formula}
      (hg : Plain L (fun z => z = y ∨ z = x ∨ S z) g) : Plain L S (.fresh2 x y g)
  | memberOf {S : Var → Prop} {t : Term} {values : List Term} (ht : t.Built S L.constant)
      (hValues : ∀ u ∈ values, u.Built S L.constant) : Plain L S (.memberOf t values)
  | unary {S : Var → Prop} {r : Unary} {t : Term} (hr : L.unary r) (ht : t.Built S L.constant) :
      Plain L S (.unary r t)
  | binary {S : Var → Prop} {r : Binary} {t u : Term} (hr : L.binary r)
      (ht : t.Built S L.constant) (hu : u.Built S L.constant) : Plain L S (.binary r t u)

/-! What a plain formula is made of is plain. -/

variable {L : Fragment} {S : Var → Prop} {g h : Formula} {gs : List Formula}

theorem plain_eq_iff {t u : Term} :
    (Formula.eq t u).Plain L S ↔ t.Built S L.constant ∧ u.Built S L.constant := by
  constructor
  · rintro ⟨⟩
    exact ⟨‹_›, ‹_›⟩
  · exact fun h => .eq h.1 h.2

theorem plain_conj_iff : (Formula.conj g h).Plain L S ↔ g.Plain L S ∧ h.Plain L S := by
  constructor
  · rintro ⟨⟩
    exact ⟨‹_›, ‹_›⟩
  · exact fun h => .conj h.1 h.2

theorem plain_disj_iff : (Formula.disj g h).Plain L S ↔ g.Plain L S ∧ h.Plain L S := by
  constructor
  · rintro ⟨⟩
    exact ⟨‹_›, ‹_›⟩
  · exact fun h => .disj h.1 h.2

theorem plain_conjAll_iff : (Formula.conjAll gs).Plain L S ↔ ∀ g ∈ gs, g.Plain L S := by
  constructor
  · rintro ⟨⟩
    assumption
  · exact .conjAll

theorem plain_disjAll_iff : (Formula.disjAll gs).Plain L S ↔ ∀ g ∈ gs, g.Plain L S := by
  constructor
  · rintro ⟨⟩
    assumption
  · exact .disjAll

theorem plain_fresh_iff {x : Var} :
    (Formula.fresh x g).Plain L S ↔ g.Plain L fun y => y = x ∨ S y := by
  constructor
  · rintro ⟨⟩
    assumption
  · exact .fresh

theorem plain_fresh2_iff {x y : Var} :
    (Formula.fresh2 x y g).Plain L S ↔ g.Plain L fun z => z = y ∨ z = x ∨ S z := by
  constructor
  · rintro ⟨⟩
    assumption
  · exact .fresh2

end Formula

end PageLogic
