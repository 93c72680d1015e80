import PageLogic.Proofs.Page.Facts
import PageLogic.Proofs.Substitution.Renaming
/-!
Relations do not depend on which variables there are. Applied to renamed arguments on a renamed branch,
a relation asks the same questions and delivers the renamed branches, and the same failures, in the same
places. A property must be read as terms without variables for this, as all properties of pages are.
-/
namespace PageLogic

namespace Term

variable {S : Var → Prop} {t : Term}

/-- With any constants allowed, only the variables of a term count. -/
theorem built_of_vars (h : ∀ x ∈ t.vars, S x) : t.Built S fun _ => True := by
  intro l hl
  cases l with
  | var x => exact h x (mem_vars_iff.mpr hl)
  | _ => trivial

/-- Any term is within `n` once its variables stand for terms within `n`. -/
theorem within_replace {n : Nat} {ρ : Valuation} (hρ : ∀ x, (ρ x).Within (fun _ => True) n)
    (t : Term) : (t.replace ρ).Within (fun _ => True) n :=
  (built_of_vars (S := fun _ => True) fun _ _ => trivial).replace fun x _ => hρ x

theorem Within.rename_congr {H : Term → Prop} {n : Nat} {f g : Var → Var} (ht : t.Within H n)
    (h : ∀ x : Var, x.id < n → f x = g x) : t.rename f = t.rename g :=
  Term.rename_congr fun x hx => h x (ht.of_mem_vars hx)

end Term

/-! ### Readings without variables -/

/-- Every value that the reading can come to has the property. -/
def Reading.Yields {α : Type} (P : α → Prop) : Reading α → Prop
  | .value x => P x
  | .fault _ => True
  | .ask _ next => ∀ r, (next r).Yields P

namespace Reading

variable {α β : Type} {P : α → Prop}

theorem yields_of {q : Question} {f : q.Value → α} (h : ∀ x, P (f x)) : (of q f).Yields P := by
  intro r
  cases r with
  | ok x => exact h x
  | error e => trivial

theorem Yields.andThen {r : Reading β} {f : β → Reading α} (h : ∀ x, (f x).Yields P) :
    (r.andThen f).Yields P := by
  induction r with
  | value x => exact h x
  | fault e => trivial
  | ask q next ih => exact fun r => ih r

end Reading

/-- The property is always read as a term without variables. -/
def Relation.Property.Closed (property : Relation.Property) : Prop :=
  ∀ e, (property e).Yields fun value => ∀ t, value = some t → t.vars = []

/-- The relation reads no variables off a page. -/
def Binary.Closed : Binary → Prop
  | .property p => Relation.Property.Closed p
  | _ => True

namespace Search

/-- The searches ask the same questions and deliver, in the same places, the same failures and branches
that go together. -/
inductive Twins (R : Branch → Branch → Prop) : Search → Search → Prop where
  | done : Twins R .done .done
  | ok {b r : Branch} {rest rest' : Search} (h : R b r) (hRest : Twins R rest rest') :
      Twins R (.emit (.ok b) rest) (.emit (.ok r) rest')
  | error {e : Error} {rest rest' : Search} (hRest : Twins R rest rest') :
      Twins R (.emit (.error e) rest) (.emit (.error e) rest')
  | delay {rest rest' : Unit → Search} (h : Twins R (rest ()) (rest' ())) :
      Twins R (.delay rest) (.delay rest')
  | ask {q : Question} {next next' : Except Fault q.Value → Search}
      (h : ∀ r, Twins R (next r) (next' r)) : Twins R (.ask q next) (.ask q next')

namespace Twins

variable {R : Branch → Branch → Prop} {s s' t t' : Search}

theorem unit {b r : Branch} (h : R b r) : Twins R (.unit b) (.unit r) :=
  .ok h .done

theorem failure (e : Error) : Twins R (.failure e) (.failure e) :=
  .error .done

theorem append (h : Twins R s s') (ht : Twins R t t') : Twins R (s.append t) (s'.append t') := by
  induction h with
  | done => exact ht
  | ok h _ ih => exact .ok h ih
  | error _ ih => exact .error ih
  | delay _ ih => exact .delay ih
  | ask _ ih => exact .ask ih

/-- The lists may differ, as long as their members correspond. -/
theorem each {α : Type} {f f' : α → Search} {g : α → α} {l : List α}
    (h : ∀ x ∈ l, Twins R (f x) (f' (g x))) : Twins R (.each f l) (.each f' (l.map g)) := by
  induction l with
  | nil => exact .done
  | cons x rest ih =>
      obtain ⟨hHead, hTail⟩ := List.forall_mem_cons.mp h
      exact .delay (hHead.append (ih hTail))

theorem each_same {α : Type} {f f' : α → Search} {l : List α}
    (h : ∀ x ∈ l, Twins R (f x) (f' x)) : Twins R (.each f l) (.each f' l) := by
  have hEach : Twins R (.each f l) (.each f' (l.map id)) := each h
  rwa [List.map_id] at hEach

theorem read {α : Type} {P : α → Prop} {r : Reading α} {f f' : Except Fault α → Search}
    (hYields : r.Yields P) (hOk : ∀ x, P x → Twins R (f (.ok x)) (f' (.ok x)))
    (hError : ∀ e, Twins R (f (.error e)) (f' (.error e))) : Twins R (.read r f) (.read r f') := by
  induction r with
  | value x => exact hOk x hYields
  | fault e => exact hError e
  | ask q next ih => exact .ask fun r => ih r (hYields r)

end Twins

end Search

/-! ### Branches -/

namespace Branch

variable {f : Var → Var} {n : Nat} {b r : Branch} {t u : Term}

/-- The second branch says of the renamed variables what the first says of those below `n`. -/
structure Renamed (f : Var → Var) (n : Nat) (b r : Branch) : Prop where
  fits : b.Fits fun _ => True
  supply_eq : b.supply = n
  substitution_eq : r.substitution = b.substitution.rename f

theorem Fits.unify {H : Term → Prop} (hb : b.Fits H) (ht : t.Within H b.supply)
    (hu : u.Within H b.supply) (h : b.unify t u = some r) :
    r.Fits H ∧ r.supply = b.supply := by
  obtain ⟨s, hs, rfl⟩ := Option.map_eq_some_iff.mp h
  obtain ⟨hGrows, _⟩ := hb.acyclic.unify_eq_some (Term.built_hereditary _ _) hb.bindings_over ht hu hs
  exact ⟨⟨hGrows.acyclic hb.acyclic, hGrows.stays_over hb.bindings_over⟩, rfl⟩

/-- Unification gives branches that go together, or neither gives one. -/
theorem Renamed.unify (hf : Function.Injective f) (h : Renamed f n b r)
    (ht : t.Within (fun _ => True) n) (hu : u.Within (fun _ => True) n) :
    b.unify t u = none ∧ r.unify (t.rename f) (u.rename f) = none ∨
      ∃ b' r', b.unify t u = some b' ∧ r.unify (t.rename f) (u.rename f) = some r' ∧
        Renamed f n b' r' := by
  have hUnify : r.substitution.unify (t.rename f) (u.rename f) =
      (b.substitution.unify t u).map (Substitution.rename f) := by
    rw [h.substitution_eq, Substitution.unify_rename hf]
  cases hs : b.substitution.unify t u with
  | none =>
      rw [hs] at hUnify
      exact .inl ⟨by rw [Branch.unify, hs, Option.map_none],
        by rw [Branch.unify, hUnify, Option.map_none, Option.map_none]⟩
  | some s =>
      rw [hs] at hUnify
      have hUnified : b.unify t u = some { b with substitution := s } := by
        rw [Branch.unify, hs, Option.map_some]
      have hSupply := h.supply_eq
      subst hSupply
      obtain ⟨hFits, _⟩ := h.fits.unify ht hu hUnified
      refine .inr ⟨_, { r with substitution := s.rename f }, hUnified, ?_, hFits, rfl, rfl⟩
      rw [Branch.unify, hUnify, Option.map_some, Option.map_some]

theorem Renamed.binding_eq (hf : Function.Injective f) (h : Renamed f n b r) (t : Term) :
    Binding.of r.substitution (t.rename f) = (Binding.of b.substitution t).rename f := by
  rw [h.substitution_eq, Binding.of_rename hf]

end Branch

/-! ### Relations -/

namespace Relation

open Search

variable {f : Var → Var} {n : Nat} {b r : Branch} {c : Context} {element value name child t : Term}
  {property : Property}

theorem within_element (e : Handle) (n : Nat) : (Term.element e).Within (fun _ => True) n :=
  Term.built_of_vars (by simp [Term.vars])

theorem within_str (text : String) (n : Nat) : (Term.str text).Within (fun _ => True) n :=
  Term.built_of_vars (by simp [Term.vars])

theorem twins_unify (hf : Function.Injective f) (h : b.Renamed f n r) {u : Term}
    (ht : t.Within (fun _ => True) n) (hu : u.Within (fun _ => True) n) :
    Twins (Branch.Renamed f n) (.ofOption (b.unify t u))
      (.ofOption (r.unify (t.rename f) (u.rename f))) := by
  rcases h.unify hf ht hu with ⟨hNone, hNone'⟩ | ⟨b', r', hSome, hSome', hNext⟩
  · rw [hNone, hNone']
    exact .done
  · rw [hSome, hSome']
    exact .unit hNext

/-- What is known without variables is the same for both. -/
theorem twins_unify_closed (hf : Function.Injective f) (h : b.Renamed f n r) {u : Term}
    (ht : t.Within (fun _ => True) n) (hu : u.vars = []) :
    Twins (Branch.Renamed f n) (.ofOption (b.unify t u)) (.ofOption (r.unify (t.rename f) u)) := by
  have hTwins := twins_unify hf h ht (Term.built_of_vars (t := u) (by simp [hu]))
  rwa [Term.rename_of_vars_eq_nil hu] at hTwins

theorem twins_onAnswer_error {α : Type} {R : Branch → Branch → Prop} (g g' : α → Search)
    (e : Fault) : Twins R (onAnswer g (.error e)) (onAnswer g' (.error e)) := by
  simp only [onAnswer]
  cases e.isRecognized with
  | true => exact .done
  | false => exact .failure _

theorem twins_eachCandidate {R : Branch → Branch → Prop} {g g' : Handle → Search}
    (h : ∀ e, Twins R (g e) (g' e)) : Twins R (eachCandidate c g) (eachCandidate c g') := by
  refine .ask fun answer => ?_
  cases answer with
  | ok candidates => exact .each_same fun e _ => h e
  | error e => exact .failure _

/-- Choosing a candidate for an unknown element. -/
theorem twins_choose (hf : Function.Injective f) (h : b.Renamed f n r)
    (hElement : element.Within (fun _ => True) n) {g g' : Handle → Branch → Search}
    (hg : ∀ e b' r', b'.Renamed f n r' → Twins (Branch.Renamed f n) (g e b') (g' e r')) (e : Handle) :
    Twins (Branch.Renamed f n)
      (match b.unify element (.element e) with
        | some b' => g e b'
        | none => .done)
      (match r.unify (element.rename f) (.element e) with
        | some r' => g' e r'
        | none => .done) := by
  rcases h.unify hf hElement (within_element e n) with
    ⟨hNone, hNone'⟩ | ⟨b', r', hSome, hSome', hNext⟩
  · have hNone' : r.unify (element.rename f) (.element e) = none := hNone'
    rw [hNone, hNone']
    exact .done
  · have hSome' : r.unify (element.rename f) (.element e) = some r' := hSome'
    rw [hSome, hSome']
    exact hg e b' r' hNext

theorem twins_resolve (hf : Function.Injective f) (h : b.Renamed f n r)
    (hClosed : property.Closed) (hValue : value.Within (fun _ => True) n) (e : Handle) :
    Twins (Branch.Renamed f n) (resolve property e value b)
      (resolve property e (value.rename f) r) := by
  refine .read (hClosed e) (fun actual hActual => ?_) (twins_onAnswer_error _ _)
  cases actual with
  | none => exact .done
  | some t => exact twins_unify_closed hf h hValue (hActual t rfl)

theorem twins_ofProperty (hf : Function.Injective f) (h : b.Renamed f n r)
    (hClosed : property.Closed) (hElement : element.Within (fun _ => True) n)
    (hValue : value.Within (fun _ => True) n) (c : Context) :
    Twins (Branch.Renamed f n) (ofProperty property element value c b)
      (ofProperty property (element.rename f) (value.rename f) c r) := by
  refine .delay ?_
  rw [h.binding_eq hf]
  cases Binding.of b.substitution element with
  | fresh =>
      exact twins_eachCandidate (twins_choose hf h hElement fun e _ _ h' =>
        twins_resolve hf h' hClosed hValue e)
  | grounded t =>
      cases t with
      | element e => exact twins_resolve hf h hClosed hValue e
      | _ => exact .done

theorem closed_attributeNamed (name : String) : (attributeNamed name).Closed := by
  intro e
  refine Reading.yields_of fun actual t ht => ?_
  obtain ⟨text, _, rfl⟩ := Option.map_eq_some_iff.mp ht
  rfl

theorem twins_attributeOn (hf : Function.Injective f) (h : b.Renamed f n r)
    (hName : name.Within (fun _ => True) n) (hValue : value.Within (fun _ => True) n)
    (binding : Binding) (e : Handle) :
    Twins (Branch.Renamed f n) (attributeOn e binding name value b)
      (attributeOn e (binding.rename f) (name.rename f) (value.rename f) r) := by
  cases binding with
  | fresh =>
      simp only [attributeOn, Binding.rename, scanVocabulary]
      refine .each_same fun text _ => ?_
      rcases h.unify hf hName (within_str text n) with
        ⟨hNone, hNone'⟩ | ⟨b', r', hSome, hSome', hNext⟩
      · have hNone' : r.unify (name.rename f) (.str text) = none := hNone'
        rw [hNone, hNone']
        exact .done
      · have hSome' : r.unify (name.rename f) (.str text) = some r' := hSome'
        rw [hSome, hSome']
        exact twins_resolve hf hNext (closed_attributeNamed text) hValue e
  | grounded t =>
      cases t with
      | str text => exact twins_resolve hf h (closed_attributeNamed text) hValue e
      | _ => exact .done

theorem twins_carries (hf : Function.Injective f) (h : b.Renamed f n r)
    (hElement : element.Within (fun _ => True) n) (hName : name.Within (fun _ => True) n)
    (hValue : value.Within (fun _ => True) n) (c : Context) :
    Twins (Branch.Renamed f n) (carries element name value c b)
      (carries (element.rename f) (name.rename f) (value.rename f) c r) := by
  have hAttribute (binding : Binding) (e : Handle) (b' r' : Branch) (h' : b'.Renamed f n r') :=
    twins_attributeOn hf h' hName hValue binding e
  refine .delay ?_
  rw [h.binding_eq hf, h.binding_eq hf]
  generalize Binding.of b.substitution name = binding
  cases binding with
  | fresh =>
      cases Binding.of b.substitution element with
      | fresh => exact twins_eachCandidate (twins_choose hf h hElement (hAttribute .fresh))
      | grounded t =>
          cases t with
          | element e => exact hAttribute .fresh e b r h
          | _ => exact .done
  | grounded u =>
      cases u with
      | str text =>
          cases Binding.of b.substitution element with
          | fresh =>
              exact twins_eachCandidate
                (twins_choose hf h hElement (hAttribute (.grounded (.str text))))
          | grounded t =>
              cases t with
              | element e => exact hAttribute (.grounded (.str text)) e b r h
              | _ => exact .done
      | _ => exact .done

theorem twins_beneath {R : Branch → Branch → Prop} {g g' : List Handle → Search}
    (h : ∀ below, Twins R (g below) (g' below)) (c : Context) (parent : Handle) :
    Twins R (beneath c parent g) (beneath c parent g') := by
  refine .ask fun answer => ?_
  cases answer with
  | ok below => exact h below
  | error e => exact twins_onAnswer_error _ _ e

theorem twins_bindBeneath (hf : Function.Injective f) (h : b.Renamed f n r)
    (hChild : child.Within (fun _ => True) n) (c : Context) (parent : Handle) :
    Twins (Branch.Renamed f n) (bindBeneath c child parent b)
      (bindBeneath c (child.rename f) parent r) := by
  refine twins_beneath (fun below => ?_) c parent
  exact .each_same fun e _ => twins_unify hf h hChild (within_element e n)

theorem twins_childOf (hf : Function.Injective f) (h : b.Renamed f n r) {parent : Term}
    (hChild : child.Within (fun _ => True) n) (hParent : parent.Within (fun _ => True) n)
    (c : Context) :
    Twins (Branch.Renamed f n) (childOf child parent c b)
      (childOf (child.rename f) (parent.rename f) c r) := by
  have hCandidates := twins_eachCandidate (c := c) (twins_choose hf h hParent fun p _ _ h' =>
    twins_bindBeneath hf h' hChild c p)
  refine .delay ?_
  rw [h.binding_eq hf, h.binding_eq hf]
  cases Binding.of b.substitution child with
  | fresh =>
      cases Binding.of b.substitution parent with
      | fresh => exact hCandidates
      | grounded t =>
          cases t with
          | element p => exact twins_bindBeneath hf h hChild c p
          | _ => exact .done
  | grounded u =>
      cases u with
      | element e =>
          cases Binding.of b.substitution parent with
          | fresh => exact hCandidates
          | grounded t =>
              cases t with
              | element p =>
                  refine twins_beneath (fun below => ?_) c p
                  split
                  · exact .unit h
                  · exact .done
              | _ => exact .done
      | _ => exact .done

theorem twins_pageFact (hf : Function.Injective f) (h : b.Renamed f n r)
    (hValue : value.Within (fun _ => True) n) (read : Reading String) (c : Context) :
    Twins (Branch.Renamed f n) (pageFact read value c b) (pageFact read (value.rename f) c r) := by
  have hYields : read.Yields fun _ => True := by
    induction read with
    | value x => trivial
    | fault e => trivial
    | ask q next ih => exact ih
  refine .delay (.read hYields (fun actual _ => ?_) (twins_onAnswer_error _ _))
  exact twins_unify hf h hValue (within_str actual n)

theorem twins_memberOf (hf : Function.Injective f) (h : b.Renamed f n r)
    (ht : t.Within (fun _ => True) n) {values : List Term}
    (hValues : ∀ u ∈ values, u.Within (fun _ => True) n) (c : Context) :
    Twins (Branch.Renamed f n) (Goal.memberOf t values c b)
      (Goal.memberOf (t.rename f) (values.map (Term.rename f)) c r) :=
  .each fun u hu => twins_unify hf h ht (hValues u hu)

/-- The words of a vocabulary have no variables. -/
theorem twins_vocabulary (hf : Function.Injective f) (h : b.Renamed f n r)
    (ht : t.Within (fun _ => True) n) (words : List String) (c : Context) :
    Twins (Branch.Renamed f n) (Goal.memberOf t (words.map .str) c b)
      (Goal.memberOf (t.rename f) (words.map .str) c r) := by
  have hTwins := twins_memberOf hf h ht
    (List.forall_mem_map.mpr fun (word : String) (_ : word ∈ words) => within_str word n) c
  rwa [List.map_map] at hTwins

end Relation

open PageLogic.Relation

variable {f : Var → Var} {n : Nat} {b r : Branch} {t u : Term}

theorem closed_always {q : Handle → Question} {g : (e : Handle) → (q e).Value → Term}
    (h : ∀ e x, (g e x).vars = []) : (always q g).Closed :=
  fun e => Reading.yields_of fun x _ ht => Option.some.inj ht ▸ h e x

theorem closed_holdingProperty (read : Handle → Reading Bool) : (holdingProperty read).Closed :=
  fun _ => Reading.Yields.andThen fun _ _ ht => Option.some.inj ht ▸ rfl

theorem Binary.closed_property? {a : Binary} (ha : a.Closed) {property : Property}
    (h : a.property? = some property) : property.Closed := by
  cases a with
  | tag | text =>
      obtain rfl := Option.some.inj h
      exact closed_always fun _ _ => rfl
  | size | location =>
      obtain rfl := Option.some.inj h
      exact closed_always fun _ _ => (Page.isData_pair _ _ _ _).1
  | attributeOf name =>
      obtain rfl := Option.some.inj h
      exact closed_attributeNamed name
  | property p =>
      obtain rfl := Option.some.inj h
      exact ha
  | childOf => cases h

theorem Unary.twins (a : Unary) (hf : Function.Injective f) (h : b.Renamed f n r)
    (ht : t.Within (fun _ => True) n) (c : Context) :
    Search.Twins (Branch.Renamed f n) (a.goal t c b) (a.goal (t.rename f) c r) := by
  have hHolding {read : Handle → Reading Bool} (hRead : a.reading? = some read) :
      Search.Twins (Branch.Renamed f n) (a.goal t c b) (a.goal (t.rename f) c r) := by
    rw [Unary.goal_of_reading? hRead, Unary.goal_of_reading? hRead]
    exact twins_ofProperty hf h (closed_holdingProperty read) ht
      (Term.built_of_vars (t := .bool true) (by simp [Term.vars])) c
  cases a with
  | title => exact twins_pageFact hf h ht _ c
  | currentUrl => exact twins_pageFact hf h ht _ c
  | knownTag => exact twins_vocabulary hf h ht knownTags c
  | knownAttribute => exact twins_vocabulary hf h ht knownAttributes c
  | _ => exact hHolding rfl

theorem Binary.twins {a : Binary} (ha : a.Closed) (hf : Function.Injective f)
    (h : b.Renamed f n r) (ht : t.Within (fun _ => True) n) (hu : u.Within (fun _ => True) n)
    (c : Context) :
    Search.Twins (Branch.Renamed f n) (a.goal t u c b) (a.goal (t.rename f) (u.rename f) c r) := by
  cases hProperty : a.property? with
  | some property =>
      rw [Binary.goal_of_property? hProperty]
      exact twins_ofProperty hf h (closed_property? ha hProperty) ht hu c
  | none =>
      cases a with
      | childOf => exact twins_childOf hf h ht hu c
      | _ => cases hProperty

end PageLogic
