import PageLogic.Proofs.Relation.Candidates
import PageLogic.Relation.Descent
/-!
Unknown arguments. A relation that does not know its element goes through the candidates by itself,
and an attribute whose name is not known goes through the vocabulary. Neither asks anew what is known
of the other arguments once a candidate is chosen. The items are those of guessing first, one value
after the other, and then asking the relation, also where arguments share variables.
-/
namespace PageLogic

/-- A branch on which one more variable is bound. -/
def Branch.assign (b : Branch) (x : Var) (t : Term) : Branch :=
  { b with substitution := b.substitution.push x t }

namespace Relation

variable {σ : Type} {o : Oracle σ} {K : σ → Prop} {a : Answers} {c : Context} {b : Branch}
  {element name value child parent : Term} {x : Var} {e : Handle}

/-! ### Guessing -/

theorem unify_assign {t v : Term} (h : b.substitution.walk t = .var x) (hv : v.isAtom = true) :
    b.unify t v = some (b.assign x v) := by
  rw [Branch.unify, Substitution.unify_atom h hv]
  rfl

theorem delivers_memberOf {t : Term} {values : List Term} (h : b.substitution.walk t = .var x)
    (hAtoms : ∀ v ∈ values, v.isAtom = true) :
    (Goal.memberOf t values c b).Delivers o K (values.map fun v => .ok (b.assign x v)) := by
  rw [List.map_eq_flatMap]
  refine .each fun v hv => ?_
  rw [unify_assign h (hAtoms v hv)]
  exact .unit _

/-- Guessing a value for an unknown term first delivers the items of one value after the other. -/
theorem delivers_memberOf_conj {t : Term} {values : List Term} {g : Goal}
    {items : Term → List Item} (h : b.substitution.walk t = .var x)
    (hAtoms : ∀ v ∈ values, v.isAtom = true)
    (hg : ∀ v ∈ values, (g c (b.assign x v)).Delivers o K (items v)) :
    ((Goal.memberOf t values).conj g c b).Delivers o K (values.flatMap items) := by
  have hWalk {v : Term} (hv : v ∈ values) : (b.assign x v).substitution.walk t = v :=
    Substitution.walk_push_self h (Term.isVar_of_isAtom (hAtoms v hv))
  -- The branch tells which value was guessed: it is what the term stands for there.
  have hBoth := (delivers_memberOf (o := o) (K := K) (c := c) h hAtoms).bind_items (f := g c)
    (g := fun r => items (r.substitution.walk t)) fun r hr => ?_
  · rw [List.flatMap_map] at hBoth
    have hItems : values.flatMap items = values.flatMap fun v =>
        Search.continued (fun r => items (r.substitution.walk t)) (.ok (b.assign x v)) := by
      apply List.flatMap_congr
      intro v hv
      rw [Search.continued, hWalk hv]
    rw [hItems]
    exact hBoth
  · obtain ⟨v, hv, hEq⟩ := List.mem_map.mp hr
    obtain rfl := Except.ok.inj hEq
    rw [hWalk hv]
    exact hg v hv

/-- So does guessing an unknown element. -/
theorem delivers_candidates_conj {candidates : List Handle} {g : Goal}
    {items : Handle → List Item} (h : b.substitution.walk element = .var x)
    (hg : ∀ e ∈ candidates, (g c (bindTo x e b)).Delivers o K (items e)) :
    ((Goal.memberOf element (candidates.map .element)).conj g c b).Delivers o K
      (candidates.flatMap items) := by
  have hBoth : ((Goal.memberOf element (candidates.map .element)).conj g c b).Delivers o K
      ((candidates.map Term.element).flatMap fun v => v.element?.elim [] items) :=
    delivers_memberOf_conj h (List.forall_mem_map.mpr fun _ _ => rfl) (List.forall_mem_map.mpr hg)
  rw [List.flatMap_map] at hBoth
  exact hBoth

/-! ### Attributes -/

/-- The items of the attribute on a known element, after what is known of its name. -/
def attributeItems (a : Answers) (e : Handle) (name value : Term) (b : Branch) :
    Binding → List Item
  | .grounded (.str n) => itemsOf value b ((attributeNamed n e).outcome a)
  | .grounded _ => []
  | .fresh => knownAttributes.flatMap fun n =>
      (b.unify name (.str n)).elim [] fun r => itemsOf value r ((attributeNamed n e).outcome a)

theorem delivers_attributeOn (binding : Binding) (e : Handle) (name value : Term) (b : Branch) :
    (attributeOn e binding name value b).Delivers o (o.Steady a)
      (attributeItems a e name value b binding) := by
  cases binding with
  | fresh =>
      refine .each fun n _ => ?_
      cases b.unify name (.str n) with
      | none => exact .done
      | some r => exact delivers_resolve (attributeNamed n) e value r
  | grounded t =>
      cases t with
      | str n => exact delivers_resolve (attributeNamed n) e value b
      | _ => exact .done

theorem delivers_carries_known (h : b.substitution.walk element = .element e) :
    (carries element name value c b).Delivers o (o.Steady a)
      (attributeItems a e name value b (Binding.of b.substitution name)) := by
  have hElement : Binding.of b.substitution element = .grounded (.element e) := by
    rw [Binding.of, h]
  have hItems := delivers_attributeOn (o := o) (a := a) (Binding.of b.substitution name) e name
    value b
  unfold carries
  rw [hElement]
  refine .delay ?_
  generalize Binding.of b.substitution name = binding at hItems ⊢
  cases binding with
  | fresh => exact hItems
  | grounded t =>
      cases t with
      | str n => exact hItems
      | _ => exact .done

theorem delivers_carries_unknown (h : b.substitution.walk element = .var x)
    {candidates : List Handle} (hCandidates : a (.elements c.scope.root) = .ok candidates) :
    (carries element name value c b).Delivers o (o.Steady a)
      (candidates.flatMap fun e =>
        attributeItems a e name value (bindTo x e b) (Binding.of b.substitution name)) := by
  have hEach {f : Handle → Search}
      (hf : ∀ e, f e = attributeOn e (Binding.of b.substitution name) name value (bindTo x e b)) :
      (eachCandidate c f).Delivers o (o.Steady a) (candidates.flatMap fun e =>
        attributeItems a e name value (bindTo x e b) (Binding.of b.substitution name)) := by
    refine delivers_eachCandidate hCandidates fun e _ => ?_
    rw [hf]
    exact delivers_attributeOn _ e name value _
  unfold carries
  rw [binding_of_walk h]
  refine .delay ?_
  generalize Binding.of b.substitution name = binding at hEach ⊢
  cases binding with
  | fresh => exact hEach fun e => by rw [unify_element h]
  | grounded t =>
      cases t with
      | str n => exact hEach fun e => by rw [unify_element h]
      | _ =>
          have hNothing : candidates.flatMap (fun _ => ([] : List Item)) = [] :=
            List.flatMap_eq_nil_iff.mpr fun _ _ => rfl
          simp only [attributeItems, hNothing]
          exact .done

/-- What is known of the name stays so when the element is chosen. Should the name turn out to be that
element, then no word of the vocabulary unifies with it. -/
theorem attributeItems_bindTo (h : b.substitution.walk element = .var x) (a : Answers) (e : Handle)
    (name value : Term) :
    attributeItems a e name value (bindTo x e b) (Binding.of b.substitution name) =
      attributeItems a e name value (bindTo x e b)
        (Binding.of (bindTo x e b).substitution name) := by
  cases hName : (b.substitution.walk name).isVar with
  | false =>
      have hSame : (bindTo x e b).substitution.walk name = b.substitution.walk name :=
        Substitution.walk_push_constant h rfl rfl hName
      rw [Binding.of, Binding.of, hSame]
  | true =>
      obtain ⟨y, hWalk⟩ : ∃ y, b.substitution.walk name = .var y := by
        cases hWalk : b.substitution.walk name with
        | var y => exact ⟨y, rfl⟩
        | _ => rw [hWalk] at hName; cases hName
      rw [binding_of_walk hWalk]
      rcases Substitution.walk_push b.substitution x name (u := .element e) rfl with
        ⟨hSame, _⟩ | ⟨hElement, _⟩
      · have hFresh : (bindTo x e b).substitution.walk name = .var y := hSame.trans hWalk
        rw [binding_of_walk hFresh]
      · have hElement : (bindTo x e b).substitution.walk name = .element e := hElement
        have hNone (n : String) : (bindTo x e b).unify name (.str n) = none := by
          rw [Branch.unify, Substitution.unify_atoms hElement
            (Substitution.walk_of_not_isVar rfl) rfl rfl]
          rfl
        rw [Binding.of, hElement]
        simp only [attributeItems, hNone, Option.elim_none]
        exact List.flatMap_eq_nil_iff.mpr fun _ _ => rfl

/-- With the element known, an unknown name is sought in the vocabulary. -/
theorem delivers_carries_unknown_name (h : b.substitution.walk element = .element e)
    (hName : b.substitution.walk name = .var x) :
    (carries element name value c b).Delivers o (o.Steady a)
      (knownAttributes.flatMap fun n =>
        itemsOf value (b.assign x (.str n)) ((attributeNamed n e).outcome a)) := by
  have hItems : (carries element name value c b).Delivers o (o.Steady a)
      (attributeItems a e name value b (Binding.of b.substitution name)) :=
    delivers_carries_known h
  rw [binding_of_walk hName] at hItems
  have hUnify (n : String) : b.unify name (.str n) = some (b.assign x (.str n)) :=
    unify_assign hName rfl
  simp only [attributeItems, hUnify, Option.elim_some] at hItems
  exact hItems

/-- What is known to be no element carries nothing. -/
theorem delivers_carries_other (h : (b.substitution.walk element).mayBeElement = false) :
    (carries element name value c b).Delivers o (o.Steady a) [] := by
  obtain ⟨t, hOther, hElement⟩ := binding_of_not_mayBeElement h
  unfold carries
  rw [hOther]
  refine .delay ?_
  generalize Binding.of b.substitution name = binding
  cases t with
  | element e => exact absurd rfl (hElement e)
  | _ =>
      cases binding with
      | fresh => exact .done
      | grounded t => cases t <;> exact .done

/-! ### What lies beneath -/

/-- The items of the elements beneath a known parent. -/
def beneathItems (a : Answers) (c : Context) (child : Term) (parent : Handle) (b : Branch) :
    List Item :=
  match a (.descendants parent c.scope.child) with
  | .ok below => below.flatMap fun e => (b.unify child (.element e)).toList.map .ok
  | .error f => if f.isRecognized then [] else [.error (.oracle f)]

theorem delivers_everyBeneath {f : List Handle → Search} (items : List Handle → List Item)
    {parent : Handle} (hf : ∀ below, (f below).Delivers o (o.Steady a) (items below)) :
    (beneath c parent f).Delivers o (o.Steady a)
      (match a (.descendants parent c.scope.child) with
        | .ok below => items below
        | .error f => if f.isRecognized then [] else [.error (.oracle f)]) := by
  refine .ask (o.replies_of_steady a _) ?_
  cases a (.descendants parent c.scope.child) with
  | ok below => exact hf below
  | error f =>
      simp only [onAnswer]
      cases f.isRecognized with
      | true => exact .done
      | false => exact .failure _

theorem delivers_bindBeneath (child : Term) (parent : Handle) (b : Branch) :
    (bindBeneath c child parent b).Delivers o (o.Steady a) (beneathItems a c child parent b) :=
  delivers_everyBeneath (fun below => below.flatMap fun e => (b.unify child (.element e)).toList.map .ok)
    fun _ => .each fun _ _ => .ofOption _

/-- In a list without repetitions, looking for an element is the same as trying all. -/
theorem flatMap_eq_membership {below : List Handle} (h : below.Nodup) (e : Handle) (b : Branch) :
    (below.flatMap fun d => if e = d then [Except.ok b] else []) =
      if e ∈ below then [(.ok b : Item)] else [] := by
  induction below with
  | nil => rfl
  | cons d below ih =>
      obtain ⟨hNotMem, hBelow⟩ := List.nodup_cons.mp h
      rw [List.flatMap_cons, ih hBelow]
      by_cases hEq : e = d
      · subst hEq
        simp [hNotMem]
      · simp [hEq]

/-- With child and parent known, the question is whether the one is among what lies beneath the
other. -/
theorem beneathItems_known {parentHandle : Handle}
    (hNodup : ∀ below, a (.descendants parentHandle c.scope.child) = .ok below → below.Nodup)
    (hChild : b.substitution.walk child = .element e) :
    beneathItems a c child parentHandle b =
      match a (.descendants parentHandle c.scope.child) with
        | .ok below => if e ∈ below then [.ok b] else []
        | .error f => if f.isRecognized then [] else [.error (.oracle f)] := by
  have hUnify (d : Handle) : (b.unify child (.element d)).toList.map Except.ok =
      if e = d then [(.ok b : Item)] else [] := by
    rw [Branch.unify, Substitution.unify_atoms hChild (Substitution.walk_of_not_isVar rfl) rfl rfl]
    by_cases hEq : e = d <;> simp [hEq]
  unfold beneathItems
  cases hBelow : a (.descendants parentHandle c.scope.child) with
  | error f => rfl
  | ok below =>
      simp only [hUnify]
      exact flatMap_eq_membership (hNodup below hBelow) e b

/-- With the parent known, the items are the same whether the child is known or not. -/
theorem delivers_childOf_known {parentHandle : Handle}
    (hNodup : ∀ below, a (.descendants parentHandle c.scope.child) = .ok below → below.Nodup)
    (hChild : (b.substitution.walk child).mayBeElement = true)
    (hParent : b.substitution.walk parent = .element parentHandle) :
    (childOf child parent c b).Delivers o (o.Steady a)
      (beneathItems a c child parentHandle b) := by
  cases hWalk : b.substitution.walk child with
  | var x =>
      unfold childOf Binding.of
      rw [hWalk, hParent]
      exact (delivers_bindBeneath child parentHandle b).delay
  | element e =>
      have hItems : (beneath c parentHandle fun below =>
          if e ∈ below then .unit b else .done).Delivers o (o.Steady a) _ :=
        delivers_everyBeneath (fun below => if e ∈ below then [.ok b] else []) fun below => by
          split
          · exact .unit b
          · exact .done
      rw [beneathItems_known hNodup hWalk]
      unfold childOf Binding.of
      rw [hWalk, hParent]
      exact hItems.delay
  | _ =>
      rw [hWalk] at hChild
      cases hChild

/-- What is known to be no element lies beneath nothing. -/
theorem delivers_childOf_other (h : (b.substitution.walk child).mayBeElement = false) :
    (childOf child parent c b).Delivers o (o.Steady a) [] := by
  obtain ⟨t, hOther, hElement⟩ := binding_of_not_mayBeElement h
  unfold childOf
  rw [hOther]
  refine .delay ?_
  generalize Binding.of b.substitution parent = binding
  cases t with
  | element e => exact absurd rfl (hElement e)
  | _ =>
      cases binding with
      | fresh => exact .done
      | grounded t => cases t <;> exact .done

/-- With the parent unknown, the candidates are parents one after the other. -/
theorem delivers_childOf_unknown (hChild : (b.substitution.walk child).mayBeElement = true)
    (hParent : b.substitution.walk parent = .var x) {candidates : List Handle}
    (hCandidates : a (.elements c.scope.root) = .ok candidates) :
    (childOf child parent c b).Delivers o (o.Steady a)
      (candidates.flatMap fun p => beneathItems a c child p (bindTo x p b)) := by
  unfold childOf Binding.of
  rw [hParent]
  refine .delay ?_
  cases hWalk : b.substitution.walk child with
  | var | element =>
      refine delivers_eachCandidate hCandidates fun p _ => ?_
      rw [unify_element hParent]
      exact delivers_bindBeneath child p _
  | _ =>
      rw [hWalk] at hChild
      cases hChild

/-! ### Asking and guessing -/

/-- The relations that go through the candidates when they do not know this argument: those of an
element and a property, of an element and an attribute, and of a parent and what lies beneath it. -/
inductive Seeks (element : Term) : Goal → Prop where
  | ofProperty (property : Property) (value : Term) :
      Seeks element (ofProperty property element value)
  | carries (name value : Term) : Seeks element (carries element name value)
  | childOf (child : Term) : Seeks element (childOf child element)

/-- Choosing a candidate keeps a term from being an element only if it was none before. -/
theorem mayBeElement_bindTo {t : Term} (h : b.substitution.walk element = .var x) (e : Handle) :
    ((bindTo x e b).substitution.walk t).mayBeElement = (b.substitution.walk t).mayBeElement := by
  cases hVar : (b.substitution.walk t).isVar with
  | false =>
      have hSame : (bindTo x e b).substitution.walk t = b.substitution.walk t :=
        Substitution.walk_push_constant h rfl rfl hVar
      rw [hSame]
  | true =>
      rw [Term.mayBeElement_of_isVar hVar]
      rcases Substitution.walk_push b.substitution x t (u := .element e) rfl with
        ⟨hSame, _⟩ | ⟨hElement, _⟩
      · have hSame : (bindTo x e b).substitution.walk t = b.substitution.walk t := hSame
        rw [hSame, Term.mayBeElement_of_isVar hVar]
      · have hElement : (bindTo x e b).substitution.walk t = .element e := hElement
        rw [hElement]
        rfl

/-- A relation that does not know its element delivers the items of guessing it first. -/
theorem Seeks.delivers {g : Goal} (hSeeks : Seeks element g)
    (hUnknown : b.substitution.walk element = .var x) {candidates : List Handle}
    (hCandidates : a (.elements c.scope.root) = .ok candidates)
    (hNodup : ∀ p below, a (.descendants p c.scope.child) = .ok below → below.Nodup)
    (o : Oracle σ) :
    ∃ items, (g c b).Delivers o (o.Steady a) items ∧
      ((Goal.memberOf element (candidates.map .element)).conj g c b).Delivers o (o.Steady a)
        items := by
  cases hSeeks with
  | ofProperty property value =>
      refine ⟨_, delivers_candidates hUnknown hCandidates, ?_⟩
      refine delivers_candidates_conj hUnknown fun e _ => ?_
      exact delivers_ofProperty_known (walk_bindTo hUnknown e)
  | carries name value =>
      refine ⟨_, delivers_carries_unknown hUnknown hCandidates, ?_⟩
      refine delivers_candidates_conj hUnknown fun e _ => ?_
      rw [attributeItems_bindTo hUnknown]
      exact delivers_carries_known (walk_bindTo hUnknown e)
  | childOf child =>
      cases hChild : (b.substitution.walk child).mayBeElement with
      | true =>
          refine ⟨_, delivers_childOf_unknown hChild hUnknown hCandidates, ?_⟩
          refine delivers_candidates_conj hUnknown fun p _ => ?_
          apply delivers_childOf_known (hNodup p)
          · rw [mayBeElement_bindTo hUnknown, hChild]
          · exact walk_bindTo hUnknown p
      | false =>
          refine ⟨[], delivers_childOf_other hChild, ?_⟩
          have hNothing : candidates.flatMap (fun _ => ([] : List Item)) = [] :=
            List.flatMap_eq_nil_iff.mpr fun _ _ => rfl
          rw [← hNothing]
          refine delivers_candidates_conj hUnknown fun p _ => delivers_childOf_other ?_
          rw [mayBeElement_bindTo hUnknown, hChild]

/-- An attribute of a known element delivers, for an unknown name, the items of guessing it from the
vocabulary first. -/
theorem delivers_carries_vocabulary (hElement : (b.substitution.walk element).isVar = false)
    (hName : b.substitution.walk name = .var x) (o : Oracle σ) (a : Answers) (c : Context)
    (value : Term) :
    ∃ items, (carries element name value c b).Delivers o (o.Steady a) items ∧
      ((knownAttribute name).conj (carries element name value) c b).Delivers o (o.Steady a)
        items := by
  have hKnown (n : String) : (b.assign x (.str n)).substitution.walk element =
      b.substitution.walk element :=
    Substitution.walk_push_constant hName rfl rfl hElement
  have hAtoms : ∀ v ∈ knownAttributes.map Term.str, v.isAtom = true :=
    List.forall_mem_map.mpr fun _ _ => rfl
  cases hMay : (b.substitution.walk element).mayBeElement with
  | true =>
      obtain ⟨e, hWalk⟩ := Term.exists_element_of_mayBeElement hMay hElement
      refine ⟨_, delivers_carries_unknown_name hWalk hName, ?_⟩
      have hWord (n : String) : (carries element name value c (b.assign x (.str n))).Delivers o
          (o.Steady a)
          (itemsOf value (b.assign x (.str n)) ((attributeNamed n e).outcome a)) := by
        have hItems : (carries element name value c (b.assign x (.str n))).Delivers o (o.Steady a)
            (attributeItems a e name value (b.assign x (.str n))
              (Binding.of (b.assign x (.str n)).substitution name)) :=
          delivers_carries_known ((hKnown n).trans hWalk)
        have hName : (b.assign x (.str n)).substitution.walk name = .str n :=
          Substitution.walk_push_self hName rfl
        rw [Binding.of, hName] at hItems
        exact hItems
      have hBoth : ((knownAttribute name).conj (carries element name value) c b).Delivers o
          (o.Steady a) ((knownAttributes.map Term.str).flatMap fun v => v.str?.elim [] fun n =>
            itemsOf value (b.assign x (.str n)) ((attributeNamed n e).outcome a)) :=
        delivers_memberOf_conj hName hAtoms (List.forall_mem_map.mpr fun n _ => hWord n)
      rw [List.flatMap_map] at hBoth
      exact hBoth
  | false =>
      refine ⟨[], delivers_carries_other hMay, ?_⟩
      have hNothing : (knownAttributes.map Term.str).flatMap (fun _ => ([] : List Item)) = [] :=
        List.flatMap_eq_nil_iff.mpr fun _ _ => rfl
      rw [← hNothing]
      refine delivers_memberOf_conj hName hAtoms (List.forall_mem_map.mpr fun n _ => ?_)
      apply delivers_carries_other
      rw [hKnown, hMay]

/-- Seeking is guessing: a relation that does not know its element shows the same items in the same
order as guessing a candidate first, and so does an attribute of a known element with guessing its
unknown name from the vocabulary. -/
theorem unknown_eq_guessed {w : World σ} {candidates : List Handle}
    (hSteady : o.Steady a w.state) (hCandidates : a (.elements c.scope.root) = .ok candidates)
    (hNodup : ∀ p below, a (.descendants p c.scope.child) = .ok below → below.Nodup)
    (b : Branch) :
    (∀ element g, Seeks element g → b.substitution.isGrounded element = false →
      ∀ n, (g c b).pulls o n w =
        ((Goal.memberOf element (candidates.map .element)).conj g c b).pulls o n w) ∧
    ∀ element name value, b.substitution.isGrounded element = true →
      b.substitution.isGrounded name = false →
      ∀ n, (carries element name value c b).pulls o n w =
        ((knownAttribute name).conj (carries element name value) c b).pulls o n w := by
  have hUnbound {t : Term} (h : b.substitution.isGrounded t = false) :
      ∃ x, b.substitution.walk t = .var x := by
    cases hWalk : b.substitution.walk t with
    | var x => exact ⟨x, rfl⟩
    | _ =>
        rw [Substitution.isGrounded, hWalk] at h
        cases h
  constructor
  · intro element g hSeeks hElement n
    obtain ⟨x, hWalk⟩ := hUnbound hElement
    obtain ⟨items, hAlone, hGuessed⟩ := hSeeks.delivers hWalk hCandidates hNodup o
    rw [hAlone.pulls_eq hSteady, hGuessed.pulls_eq hSteady]
  · intro element name value hElement hName n
    obtain ⟨x, hWalk⟩ := hUnbound hName
    have hKnown : (b.substitution.walk element).isVar = false := by
      rw [Substitution.isGrounded] at hElement
      simpa using hElement
    obtain ⟨items, hAlone, hGuessed⟩ :=
      delivers_carries_vocabulary hKnown hWalk o a c value
    rw [hAlone.pulls_eq hSteady, hGuessed.pulls_eq hSteady]

/-- Answers about two elements, of which the second lies beneath the first and bears no name. -/
def parentAndChild : Answers
  | .elements _ => .ok [⟨"1"⟩, ⟨"2"⟩]
  | .descendants p _ => .ok (if p = ⟨"1"⟩ then [⟨"2"⟩] else [])
  | .attribute ⟨"1"⟩ "name" => .ok (some "outer")
  | .attribute ⟨"1"⟩ _ | .attribute ⟨"2"⟩ _ => .ok none
  | _ => .error ⟨.unexpected, "lost"⟩

/-- Guessing the parent finds the second element beneath the first, as seeking it does; no element is
found beneath itself; and the attributes of the first element are those guessed from the
vocabulary. -/
theorem parentAndChild_guessed :
    (⟨fun q s => (parentAndChild q, s)⟩ : Oracle Unit).Steady parentAndChild () ∧
      (∀ n, ((Goal.memberOf (.var ⟨1⟩) [.element ⟨"1"⟩, .element ⟨"2"⟩]).conj
          (childOf (.var ⟨0⟩) (.var ⟨1⟩)) ⟨.everything⟩ (.start 2)).pulls
            (⟨fun q s => (parentAndChild q, s)⟩ : Oracle Unit) n (.of ()) =
        [.ok ((bindTo ⟨1⟩ ⟨"1"⟩ (.start 2)).assign ⟨0⟩ (.element ⟨"2"⟩))].take n) ∧
      (∀ n, (childOf (.var ⟨0⟩) (.var ⟨0⟩) ⟨.everything⟩ (.start 2)).pulls
            (⟨fun q s => (parentAndChild q, s)⟩ : Oracle Unit) n (.of ()) =
        ((Goal.memberOf (.var ⟨0⟩) [.element ⟨"1"⟩, .element ⟨"2"⟩]).conj
          (childOf (.var ⟨0⟩) (.var ⟨0⟩)) ⟨.everything⟩ (.start 2)).pulls
            (⟨fun q s => (parentAndChild q, s)⟩ : Oracle Unit) n (.of ())) ∧
      ∀ n, (carries (.element ⟨"1"⟩) (.var ⟨0⟩) (.var ⟨0⟩) ⟨.everything⟩ (.start 2)).pulls
            (⟨fun q s => (parentAndChild q, s)⟩ : Oracle Unit) n (.of ()) =
        ((knownAttribute (.var ⟨0⟩)).conj (carries (.element ⟨"1"⟩) (.var ⟨0⟩) (.var ⟨0⟩))
          ⟨.everything⟩ (.start 2)).pulls
            (⟨fun q s => (parentAndChild q, s)⟩ : Oracle Unit) n (.of ()) := by
  have hUnbound (x : Var) : (Branch.start 2).substitution.walk (.var x) = .var x :=
    Substitution.walk_of_unbound rfl
  have hSteady : (⟨fun q s => (parentAndChild q, s)⟩ : Oracle Unit).Steady parentAndChild () :=
    fun _ _ => rfl
  have hFree (x : Var) : (Branch.start 2).substitution.isGrounded (.var x) = false := by
    rw [Substitution.isGrounded, hUnbound]
    rfl
  have hKnown : (Branch.start 2).substitution.isGrounded (.element ⟨"1"⟩) = true := by
    rw [Substitution.isGrounded, Substitution.walk_of_not_isVar rfl]
    rfl
  have hNodup : ∀ p below, parentAndChild (.descendants p Scope.everything.child) = .ok below →
      below.Nodup := by
    intro p below h
    obtain rfl := Except.ok.inj h
    split <;> simp
  obtain ⟨hSeeks, hVocabulary⟩ := unknown_eq_guessed (c := ⟨.everything⟩) (w := .of ()) hSteady rfl
    hNodup (.start 2)
  refine ⟨hSteady, fun n => ?_, ?_, ?_⟩
  · have hWalk : (bindTo ⟨1⟩ ⟨"1"⟩ (.start 2)).substitution.walk (.var ⟨0⟩) = .var ⟨0⟩ :=
      Substitution.walk_of_unbound rfl
    have hItems : [⟨"1"⟩, ⟨"2"⟩].flatMap (fun p =>
        beneathItems parentAndChild ⟨.everything⟩ (.var ⟨0⟩) p (bindTo ⟨1⟩ p (.start 2))) =
          [.ok ((bindTo ⟨1⟩ ⟨"1"⟩ (.start 2)).assign ⟨0⟩ (.element ⟨"2"⟩))] := by
      show ((bindTo ⟨1⟩ ⟨"1"⟩ (.start 2)).unify (.var ⟨0⟩) (.element ⟨"2"⟩)).toList.map _ ++ [] ++
        [] = _
      rw [unify_assign hWalk rfl]
      rfl
    have hMay : ((Branch.start 2).substitution.walk (.var ⟨0⟩)).mayBeElement = true := by
      rw [hUnbound]
      rfl
    have hDelivers : (childOf (.var ⟨0⟩) (.var ⟨1⟩) ⟨.everything⟩ (.start 2)).Delivers
        (⟨fun q s => (parentAndChild q, s)⟩ : Oracle Unit) (Oracle.Steady _ parentAndChild) _ :=
      delivers_childOf_unknown hMay (hUnbound ⟨1⟩) rfl
    rw [hItems] at hDelivers
    have hGuessed := hSeeks _ _ (.childOf (.var ⟨0⟩)) (hFree ⟨1⟩) n
    exact hGuessed.symm.trans (hDelivers.pulls_eq hSteady n)
  · exact hSeeks _ _ (.childOf _) (hFree ⟨0⟩)
  · exact hVocabulary _ _ _ hKnown (hFree ⟨0⟩)

end Relation

end PageLogic
