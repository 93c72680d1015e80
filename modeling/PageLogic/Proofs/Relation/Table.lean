import PageLogic.Proofs.Formula.Meaning
import PageLogic.Proofs.Relation.Candidates
/-!
Relations as tables. A relation is applied in different ways, according to what is known of its
arguments: a known element is asked, the elements beneath a known one are listed, an unknown one
ranges over all candidates. When the candidates are all elements that answer, all these ways come to
the same table of facts.
-/
namespace PageLogic

/-- A constant that names no element other than those of `I`. -/
def NamesOnly (I : Handle → Prop) (t : Term) : Prop :=
  ∀ e, t = .element e → I e

/-- Neither variables nor elements. -/
def Term.IsData (t : Term) : Prop :=
  t.vars = [] ∧ ∀ e, ¬ t.Names e

theorem Term.built_of_names {I : Handle → Prop} {t : Term} (hVars : t.vars = [])
    (hNames : ∀ e, t.Names e → I e) (S : Var → Prop) : t.Built S (NamesOnly I) := by
  intro l hl
  cases l with
  | var x =>
      have hx := Term.mem_vars_iff.mpr hl
      rw [hVars] at hx
      cases hx
  | element e =>
      rintro _ ⟨⟩
      exact hNames e hl
  | _ => simp [Term.LeafOf, NamesOnly]

theorem Term.IsData.built {t : Term} (h : t.IsData) (S : Var → Prop) (I : Handle → Prop) :
    t.Built S (NamesOnly I) :=
  Term.built_of_names h.1 (fun e he => absurd he (h.2 e)) S

theorem Term.built_element {I : Handle → Prop} {e : Handle} (h : I e) (S : Var → Prop) :
    (Term.element e).Built S (NamesOnly I) := by
  intro l hl
  obtain rfl := List.mem_singleton.mp hl
  rintro d ⟨⟩
  exact h

/-- What the answers about a page have in common, so far as relations depend on it. -/
structure Answers.Coherent (a : Answers) (c : Context) (I : Handle → Prop)
    (candidates : List Handle) : Prop where
  elements : a (.elements c.scope.root) = .ok candidates
  nodup : candidates.Nodup
  issued : ∀ e ∈ candidates, I e
  below_recognized : ∀ parent f,
    a (.descendants parent c.scope.child) = .error f → f.isRecognized = true
  below_nodup : ∀ parent es, a (.descendants parent c.scope.child) = .ok es → es.Nodup
  below_issued : ∀ parent es, a (.descendants parent c.scope.child) = .ok es → ∀ e ∈ es, I e
  below_listed : ∀ parent es, I parent →
    a (.descendants parent c.scope.child) = .ok es → parent ∈ candidates

namespace Relation

/-- A property that only candidates have, and that is data. -/
structure Tabular (a : Answers) (I : Handle → Prop) (candidates : List Handle)
    (property : Property) : Prop where
  recognized : ∀ e f, (property e).outcome a = .error f → f.isRecognized = true
  data : ∀ e t, (property e).outcome a = .ok (some t) → t.IsData
  listed : ∀ e t, I e → (property e).outcome a = .ok (some t) → e ∈ candidates

/-- The value of a property, if it can be read and there is one. -/
def values (a : Answers) (property : Property) (e : Handle) : List Term :=
  match (property e).outcome a with
  | .ok (some t) => [t]
  | _ => []

/-- The elements beneath one, if they can be listed. -/
def below (a : Answers) (c : Context) (parent : Handle) : List Handle :=
  match a (.descendants parent c.scope.child) with
  | .ok es => es
  | .error _ => []

variable {σ : Type} {o : Oracle σ} {a : Answers} {c : Context} {I : Handle → Prop}
  {candidates : List Handle} {n : Nat} {b : Branch} {property : Property}

/-- The candidate `d`, and with it one of the conditions `l d`. -/
def table (candidates : List Handle) (element : Term) (l : Handle → List Condition) :
    List Condition :=
  candidates.flatMap fun d => Branch.both [fun v => element.replace v = .element d] (l d)

theorem mem_table {element : Term} {l : Handle → List Condition} {A : Condition} :
    A ∈ table candidates element l ↔
      ∃ d ∈ candidates, ∃ B ∈ l d, (fun v => element.replace v = .element d ∧ B v) = A := by
  simp only [table, Branch.both_singleton, List.mem_flatMap, List.mem_map]

/-! ### Known and unknown elements -/

theorem replace_of_walk {t u : Term} (hWalk : b.substitution.walk t = u) {v : Valuation}
    (hv : b.Admits v) : t.replace v = u.replace v := by
  rw [← hWalk, hv.replace_walk]

/-- What is neither a variable nor an element never becomes an element. -/
theorem ne_element {t : Term} (hVar : ∀ x, t ≠ .var x) (hElement : ∀ e, t ≠ .element e)
    (v : Valuation) (d : Handle) : t.replace v ≠ .element d := by
  cases t with
  | var x => exact absurd rfl (hVar x)
  | element e => exact absurd rfl (hElement e)
  | _ => simp [Term.replace]

theorem refutes_element {element : Term} {e d : Handle}
    (hWalk : b.substitution.walk element = .element e) (h : d ≠ e) :
    b.Refutes fun v => element.replace v = .element d := by
  intro v hv hEq
  rw [replace_of_walk hWalk hv] at hEq
  exact h (Term.element.inj hEq).symm

/-- With the element known, only its own part of the table is left. -/
theorem covered_known {H : Term → Prop} {bs : List Branch} {element : Term} {e : Handle}
    {l : Handle → List Condition} (hWalk : b.substitution.walk element = .element e)
    (hNodup : candidates.Nodup) (hListed : e ∈ candidates ∨ l e = [])
    (h : b.Covered H bs (l e)) : b.Covered H bs (table candidates element l) := by
  have hOthers {d : Handle} (hd : d ≠ e) (B : Condition) :
      b.Refutes fun v => element.replace v = .element d ∧ B v :=
    fun v hv hAB => refutes_element hWalk hd v hv hAB.1
  by_cases he : e ∈ candidates
  · refine Branch.Covered.flatMap_of_unique hNodup he ?_ fun d hd A hA => ?_
    · rw [← List.map_id (l e)] at h
      rw [Branch.both_singleton]
      refine h.congr fun A _ v hv => ?_
      simp [replace_of_walk hWalk hv, Term.replace]
    · rw [Branch.both_singleton] at hA
      obtain ⟨B, _, rfl⟩ := List.mem_map.mp hA
      exact hOthers hd B
  · rw [hListed.resolve_left he] at h
    cases h
    refine Branch.covered_nil_of_refutes fun A hA => ?_
    obtain ⟨d, hd, B, _, rfl⟩ := mem_table.mp hA
    exact hOthers (fun hEq => he (hEq ▸ hd)) B

/-- A term that is known to be no element has no part of the table. -/
theorem covered_other {H : Term → Prop} {element t : Term} {l : Handle → List Condition}
    (hWalk : b.substitution.walk element = t) (hVar : ∀ x, t ≠ .var x)
    (hElement : ∀ e, t ≠ .element e) : b.Covered H [] (table candidates element l) := by
  refine Branch.covered_nil_of_refutes fun A hA => ?_
  obtain ⟨d, _, B, _, rfl⟩ := mem_table.mp hA
  rintro v hv ⟨hEq, _⟩
  exact ne_element hVar hElement v d ((replace_of_walk hWalk hv).symm.trans hEq)

/-- With the element unknown, the candidates give the whole table. -/
theorem covered_unknown (hCoherent : a.Coherent c I candidates) {element : Term}
    {S : Handle → Goal} {l : Handle → List Condition}
    (hS : ∀ d, I d → (S d).Expresses o (o.Steady a) c (NamesOnly I) n (l d))
    (hLocal : ∀ d, ∀ A ∈ l d, Goal.Local n A) (hElement : element.Within (NamesOnly I) n)
    (hb : b.Fits (NamesOnly I)) (hn : n ≤ b.supply) :
    ∃ bs : List Branch,
      (eachCandidate c fun d =>
        match b.unify element (.element d) with
        | some r => S d c r
        | none => .done).Delivers o (o.Steady a) (bs.map Except.ok) ∧
      b.Covered (NamesOnly I) bs (table candidates element l) := by
  have hOne (d : Handle) : ∃ bs : List Branch, d ∈ candidates →
      (match b.unify element (.element d) with
        | some r => S d c r
        | none => .done).Delivers o (o.Steady a) (bs.map Except.ok) ∧
      b.Covered (NamesOnly I) bs
        (Branch.both [fun v => element.replace v = .element d] (l d)) := by
    by_cases hd : d ∈ candidates
    · have hIssued := hCoherent.issued d hd
      have hUnify := hb.covered_unify (hElement.mono hn) (Term.built_element hIssued _)
      cases h : b.unify element (.element d) with
      | none =>
          rw [h] at hUnify
          refine ⟨[], fun _ => ⟨.done, ?_⟩⟩
          exact hUnify.both (f := fun _ => []) (fun B hB v v' hv => hLocal d B hB v v' (hv.mono hn))
            (by simp)
      | some r =>
          rw [h] at hUnify
          obtain ⟨_, _, hNarrows⟩ := hUnify.narrows_of_mem (List.mem_singleton_self r)
          obtain ⟨bs, hDelivers, hCovered⟩ :=
            hS d hIssued r hNarrows.fits (hn.trans hNarrows.supply_le)
          refine ⟨bs, fun _ => ⟨hDelivers, ?_⟩⟩
          have hBoth := hUnify.both (f := fun _ => bs)
            (fun B hB v v' hv => hLocal d B hB v v' (hv.mono hn)) (by simpa using hCovered)
          rw [Option.toList_some, List.flatMap_singleton] at hBoth
          exact hBoth
    · exact ⟨[], fun hMem => absurd hMem hd⟩
  choose f hf using hOne
  refine ⟨candidates.flatMap f, ?_, Branch.Covered.flatMap fun d hd => (hf d hd).2⟩
  rw [List.map_flatMap]
  exact delivers_eachCandidate hCoherent.elements fun d hd => (hf d hd).1

/-! ### The relations -/

/-- Reading a property of one element leaves the value to be unified. -/
theorem expresses_resolve (hProperty : Tabular a I candidates property) {value : Term}
    (hValue : value.Within (NamesOnly I) n) (e : Handle) :
    Goal.Expresses o (o.Steady a) c (NamesOnly I) n (fun _ b => resolve property e value b)
      ((values a property e).map fun t v => value.replace v = t) := by
  intro b hb hn
  have hDelivers := delivers_resolve (o := o) (a := a) property e value b
  unfold values
  cases hOutcome : (property e).outcome a with
  | error f =>
      rw [hOutcome, itemsOf_recognized (hProperty.recognized e f hOutcome)] at hDelivers
      exact ⟨[], hDelivers, .nil⟩
  | ok actual =>
      rw [hOutcome] at hDelivers
      cases actual with
      | none => exact ⟨[], hDelivers, .nil⟩
      | some t =>
          have hData := hProperty.data e t hOutcome
          have hUnify := hb.covered_unify (hValue.mono hn) (hData.built _ I)
          simp only [Term.replace_of_vars_eq_nil hData.1] at hUnify
          exact ⟨_, hDelivers, hUnify⟩

/-- An element that is known on a branch is one that the page issued. -/
theorem issued_of_walk (hb : b.Fits (NamesOnly I)) (hn : n ≤ b.supply) {element : Term}
    (hElement : element.Within (NamesOnly I) n) {e : Handle}
    (hWalk : b.substitution.walk element = .element e) : I e := by
  have hWithin := hb.bindings_over.walk (hElement.mono hn)
  rw [hWalk] at hWithin
  exact hWithin _ (List.mem_singleton_self _) e rfl

/-- Every relation between an element and a property is the table of this property. -/
theorem expresses_ofProperty (hCoherent : a.Coherent c I candidates)
    (hProperty : Tabular a I candidates property) {element value : Term}
    (hElement : element.Within (NamesOnly I) n) (hValue : value.Within (NamesOnly I) n) :
    (ofProperty property element value).Expresses o (o.Steady a) c (NamesOnly I) n
      (table candidates element fun e =>
        (values a property e).map fun t v => value.replace v = t) := by
  intro b hb hn
  have hResolve := expresses_resolve (o := o) (c := c) hProperty hValue
  unfold ofProperty Binding.of
  cases hWalk : b.substitution.walk element with
  | var x =>
      have hLocal (d : Handle) : ∀ A ∈ (values a property d).map fun t v => value.replace v = t,
          Goal.Local n A := by
        intro A hA v v' hv
        obtain ⟨t, _, rfl⟩ := List.mem_map.mp hA
        simp only [hValue.replace_eq hv]
      obtain ⟨bs, hDelivers, hCovered⟩ :=
        covered_unknown hCoherent (fun d _ => hResolve d) hLocal hElement hb hn
      exact ⟨bs, hDelivers.delay, hCovered⟩
  | element e =>
      obtain ⟨bs, hDelivers, hCovered⟩ := hResolve e b hb hn
      refine ⟨bs, hDelivers.delay, covered_known hWalk hCoherent.nodup ?_ hCovered⟩
      have hIssued := issued_of_walk hb hn hElement hWalk
      by_cases he : e ∈ candidates
      · exact .inl he
      · right
        have hNone : ∀ t, (property e).outcome a ≠ .ok (some t) := fun t ht =>
          he (hProperty.listed e t hIssued ht)
        unfold values
        split
        · exact absurd ‹_› (hNone _)
        · rfl
  | _ => exact ⟨[], .delay .done, covered_other hWalk (by simp) (by simp)⟩

/-! #### The elements beneath another -/

theorem issued_of_mem_below (hCoherent : a.Coherent c I candidates) {parent e : Handle}
    (he : e ∈ below a c parent) : I e := by
  unfold below at he
  split at he
  · exact hCoherent.below_issued parent _ ‹_› e he
  · cases he

theorem nodup_below (hCoherent : a.Coherent c I candidates) (parent : Handle) :
    (below a c parent).Nodup := by
  unfold below
  split
  · exact hCoherent.below_nodup parent _ ‹_›
  · exact List.nodup_nil

/-- Only candidates have elements beneath them. -/
theorem below_eq_nil (hCoherent : a.Coherent c I candidates) {parent : Handle} (hIssued : I parent)
    (h : parent ∉ candidates) : below a c parent = [] := by
  unfold below
  split
  · exact absurd (hCoherent.below_listed parent _ hIssued ‹_›) h
  · rfl

/-- Asking for what is beneath an element goes on with the list of it; a recognized fault goes on
with nothing. -/
theorem delivers_beneath (hCoherent : a.Coherent c I candidates) {parent : Handle}
    {f : List Handle → Search} {items : List Item}
    (hf : (f (below a c parent)).Delivers o (o.Steady a) items) (hNil : f [] = .done) :
    (beneath c parent f).Delivers o (o.Steady a) items := by
  refine .ask (o.replies_of_steady a _) ?_
  unfold below at hf
  cases hBelow : a (.descendants parent c.scope.child) with
  | ok es =>
      rw [hBelow] at hf
      exact hf
  | error fault =>
      rw [hBelow, hNil] at hf
      simpa [onAnswer, hCoherent.below_recognized parent fault hBelow] using hf

/-- The elements beneath a known one, each unified with the child. -/
theorem expresses_bindBeneath (hCoherent : a.Coherent c I candidates) {child : Term}
    (hChild : child.Within (NamesOnly I) n) (parent : Handle) :
    Goal.Expresses o (o.Steady a) c (NamesOnly I) n (fun c => bindBeneath c child parent)
      ((below a c parent).map fun e v => child.replace v = .element e) := by
  intro b hb hn
  refine ⟨(below a c parent).flatMap fun e => (b.unify child (.element e)).toList, ?_, ?_⟩
  · refine delivers_beneath hCoherent ?_ rfl
    rw [List.map_flatMap]
    exact .each fun e _ => .ofOption _
  · rw [List.map_eq_flatMap]
    refine Branch.Covered.flatMap fun e he => ?_
    exact hb.covered_unify (hChild.mono hn)
      (Term.built_element (issued_of_mem_below hCoherent he) _)

/-- Whether a known element is among those beneath a known one. -/
theorem covered_member (hCoherent : a.Coherent c I candidates) {child : Term} {e : Handle}
    (hWalk : b.substitution.walk child = .element e) (hb : b.Fits (NamesOnly I)) (parent : Handle) :
    b.Covered (NamesOnly I) (if e ∈ below a c parent then [b] else [])
      ((below a c parent).map fun d v => child.replace v = .element d) := by
  have hOthers : ∀ d, d ≠ e → ∀ A ∈ [fun v : Valuation => child.replace v = .element d],
      b.Refutes A := by
    intro d hd A hA
    obtain rfl := List.mem_singleton.mp hA
    exact refutes_element hWalk hd
  rw [List.map_eq_flatMap]
  split
  · rename_i he
    refine Branch.Covered.flatMap_of_unique (nodup_below hCoherent parent) he ?_ hOthers
    exact hb.covered_self fun v hv => replace_of_walk hWalk hv
  · rename_i he
    refine Branch.covered_nil_of_refutes fun A hA => ?_
    obtain ⟨d, hd, hA⟩ := List.mem_flatMap.mp hA
    exact hOthers d (fun hEq => he (hEq ▸ hd)) A hA

/-- A child that is known to be no element has no part of the table. -/
theorem covered_child_other {H : Term → Prop} {child parent t : Term} {l : Handle → List Handle}
    (hWalk : b.substitution.walk child = t) (hVar : ∀ x, t ≠ .var x)
    (hElement : ∀ e, t ≠ .element e) :
    b.Covered H [] (table candidates parent fun p =>
      (l p).map fun e v => child.replace v = .element e) := by
  refine Branch.covered_nil_of_refutes fun A hA => ?_
  obtain ⟨p, _, _, hB, rfl⟩ := mem_table.mp hA
  obtain ⟨e, _, rfl⟩ := List.mem_map.mp hB
  rintro v hv ⟨_, hEq⟩
  exact ne_element hVar hElement v e ((replace_of_walk hWalk hv).symm.trans hEq)

/-- Beneath is the table of all candidates and the elements beneath them. -/
theorem expresses_childOf (hCoherent : a.Coherent c I candidates) {child parent : Term}
    (hChild : child.Within (NamesOnly I) n) (hParent : parent.Within (NamesOnly I) n) :
    (childOf child parent).Expresses o (o.Steady a) c (NamesOnly I) n
      (table candidates parent fun p =>
        (below a c p).map fun e v => child.replace v = .element e) := by
  intro b hb hn
  have hBind := expresses_bindBeneath (o := o) hCoherent hChild
  have hListed {p : Handle} (hWalk : b.substitution.walk parent = .element p) :
      p ∈ candidates ∨
        ((below a c p).map fun e (v : Valuation) => child.replace v = .element e) = [] := by
    by_cases hp : p ∈ candidates
    · exact .inl hp
    · rw [below_eq_nil hCoherent (issued_of_walk hb hn hParent hWalk) hp]
      exact .inr rfl
  have hUnknown : ∃ bs : List Branch,
      (eachCandidate c fun d =>
        match b.unify parent (.element d) with
        | some r => bindBeneath c child d r
        | none => .done).Delivers o (o.Steady a) (bs.map Except.ok) ∧
      b.Covered (NamesOnly I) bs (table candidates parent fun p =>
        (below a c p).map fun e v => child.replace v = .element e) := by
    refine covered_unknown hCoherent (S := fun p c b => bindBeneath c child p b)
      (fun d _ => hBind d) (fun d A hA v v' hv => ?_) hParent hb hn
    obtain ⟨e, _, rfl⟩ := List.mem_map.mp hA
    simp only [hChild.replace_eq hv]
  unfold childOf Binding.of
  cases hWalk : b.substitution.walk parent with
  | var x =>
      cases hWalkChild : b.substitution.walk child with
      | var y =>
          obtain ⟨bs, hDelivers, hCovered⟩ := hUnknown
          exact ⟨bs, hDelivers.delay, hCovered⟩
      | element e =>
          obtain ⟨bs, hDelivers, hCovered⟩ := hUnknown
          exact ⟨bs, hDelivers.delay, hCovered⟩
      | _ => exact ⟨[], .delay .done, covered_child_other hWalkChild (by simp) (by simp)⟩
  | element p =>
      cases hWalkChild : b.substitution.walk child with
      | var y =>
          obtain ⟨bs, hDelivers, hCovered⟩ := hBind p b hb hn
          exact ⟨bs, hDelivers.delay, covered_known hWalk hCoherent.nodup (hListed hWalk) hCovered⟩
      | element e =>
          have hCovered := covered_member hCoherent hWalkChild hb p
          refine ⟨_, .delay (delivers_beneath hCoherent ?_ (if_neg List.not_mem_nil)),
            covered_known hWalk hCoherent.nodup (hListed hWalk) hCovered⟩
          split
          · exact .unit b
          · exact .done
      | _ => exact ⟨[], .delay .done, covered_child_other hWalkChild (by simp) (by simp)⟩
  | _ =>
      refine ⟨[], .delay ?_, covered_other hWalk (by simp) (by simp)⟩
      cases b.substitution.walk child <;> exact .done

/-! #### The page as a whole -/

/-- The one value of a fact about the page as a whole. -/
def pageValue (a : Answers) (read : Reading String) : List Term :=
  (read.outcome a).toOption.toList.map .str

/-- A fact about the page as a whole is the table of its one value, if it can be read. -/
theorem expresses_pageFact {read : Reading String}
    (hRecognized : ∀ f, read.outcome a = .error f → f.isRecognized = true) {value : Term}
    (hValue : value.Within (NamesOnly I) n) :
    (pageFact read value).Expresses o (o.Steady a) c (NamesOnly I) n
      ((pageValue a read).map fun u v => value.replace v = u) := by
  intro b hb hn
  unfold pageValue
  cases hOutcome : read.outcome a with
  | error f =>
      refine ⟨[], .delay (.read ?_), .nil⟩
      rw [hOutcome]
      simpa [onAnswer, hRecognized f hOutcome] using Search.Delivers.done
  | ok s =>
      refine ⟨(b.unify value (.str s)).toList, .delay (.read ?_), ?_⟩
      · rw [hOutcome]
        exact .ofOption _
      · exact hb.covered_unify (hValue.mono hn) (by simp [Term.Built, Term.LeafOf, NamesOnly])

end Relation

end PageLogic
