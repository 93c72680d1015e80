import PageLogic.Proofs.Page.Vouching
import PageLogic.Proofs.Relation.Unknown
/-!
Searches that straddle changes of their page. The candidates are those of the first pull, but each is
read only when it is reached, by the page as it is then. So an answer is about an element that is alive
at that moment, and once another document is loaded nothing more is found.
-/
namespace PageLogic.Relation

open Page

variable {c : Context} {b : Branch} {element value name : Term} {x : Var} {p : Page}
  {property : Property} {P : Page → Item → Prop} {generation index : Nat}

/-! ### What an answer says -/

/-- The property has a value on the page at this moment, and the value leads from one branch to the
other. -/
def Leads (property : Property) (value : Term) (p : Page) (e : Handle) (b r : Branch) : Prop :=
  ∃ t, (property e).outcome p.answer = .ok (some t) ∧ b.unify value t = some r

/-- The relations between an element and what a page shows of it, each with what an answer says: how
the page of that moment leads from the branch on which the element is chosen to that of the answer. -/
inductive Shown (element : Term) : Goal → (Page → Handle → Branch → Branch → Prop) → Prop where
  | property {r : Binary} {property : Property} (hFixed : r.Fixed)
      (hProperty : r.property? = some property) (value : Term) :
      Shown element (r.goal element value) (Leads property value)
  | predicate {r : Unary} {read : Handle → Reading Bool} (hRead : r.reading? = some read) :
      Shown element (r.goal element) fun p e b r => (read e).outcome p.answer = .ok true ∧ r = b
  | carries (name value : Term) :
      Shown element (carries element name value) fun p e b r => ∃ n b',
        b.unify name (.str n) = some b' ∧ Leads (attributeNamed n) value p e b' r

/-- An item is right about the page if the page is of this generation and, should the item be an answer,
the element is alive and shows what the answer says. -/
def Found (element : Term) (x : Var) (b : Branch)
    (current : Page → Handle → Branch → Branch → Prop) (generation : Nat) (p : Page) : Item → Prop
  | .ok r => p.generation = generation ∧ ∃ e, r.substitution.walk element = .element e ∧
      p.Alive e ∧ current p e (bindTo x e b) r
  | .error _ => p.generation = generation

/-! ### Reading a candidate late -/

/-- Whenever a candidate is read, an answer comes of an element that is alive, and a failure of an
element of the same generation. -/
theorem vouches_resolve (hShows : ∀ p : Page, p.Shows property)
    (hAnswer : ∀ p t r, p.generation = generation → p.Alive (handleOf generation index) →
      (property (handleOf generation index)).outcome p.answer = .ok (some t) → t.vars = [] →
      b.unify value t = some r → P p (.ok r))
    (hFailure : ∀ p error, p.generation = generation → P p (.error error)) (p : Page) :
    (resolve property (handleOf generation index) value b).Vouches P p := by
  obtain ⟨f, hData, hOutcome⟩ := hShows p
  have hInspect := hOutcome (handleOf generation index)
  refine .read ?_
  cases hResult : (property (handleOf generation index)).outcome p.answer with
  | ok actual =>
      cases actual with
      | none => trivial
      | some t =>
          rw [hResult] at hInspect
          obtain ⟨found, hFound, hValue⟩ := Reading.map_eq_ok_iff.mp hInspect.symm
          obtain ⟨hGeneration, hAlive⟩ := alive_of_inspect hFound
          refine .ofOption fun r hr => ?_
          exact hAnswer p t r hGeneration hAlive hResult (hData found t hValue).1 hr
  | error fault =>
      rw [hResult] at hInspect
      have hFault := Reading.map_eq_error_iff.mp hInspect.symm
      cases hRecognized : fault.isRecognized with
      | true =>
          simp only [onAnswer, hRecognized, ↓reduceIte]
          trivial
      | false =>
          simp only [onAnswer, hRecognized, Bool.false_eq_true, ↓reduceIte]
          exact .failure (hFailure p _ (generation_of_inspect_error hFault hRecognized))

/-- The candidates are of the generation of the page that enumerates them. -/
theorem vouches_eachCandidate {f : Handle → Search}
    (hf : ∀ index p', (f (handleOf p.generation index)).Vouches P p')
    (hFailure : ∀ error, P p (.error error)) : (eachCandidate c f).Vouches P p := by
  unfold eachCandidate
  rw [Search.Vouches]
  cases hElements : p.answer (.elements c.scope.root) with
  | error fault => exact .failure (hFailure _)
  | ok candidates =>
      refine .each (fun e he => ?_) p
      obtain ⟨index, rfl⟩ := exists_index_of_mem_elements hElements he
      exact hf index

/-- A property is read of the element that was chosen, and the element stays chosen. -/
theorem vouches_ofProperty (hWalk : b.substitution.walk element = .var x)
    (hShows : ∀ p : Page, p.Shows property) (value : Term) (c : Context) (p : Page) :
    (ofProperty property element value c b).Vouches
      (Found element x b (Leads property value) p.generation) p := by
  unfold ofProperty
  rw [binding_of_walk hWalk]
  refine vouches_eachCandidate (fun index p' => ?_) fun _ => rfl
  rw [unify_element hWalk]
  refine vouches_resolve hShows ?_ (fun _ _ h => h) p'
  intro p' t r hGeneration hAlive hOutcome hVars hUnify
  refine ⟨hGeneration, handleOf p.generation index, ?_, hAlive, t, hOutcome, hUnify⟩
  obtain ⟨s, hs, rfl⟩ := Option.map_eq_some_iff.mp hUnify
  exact Substitution.walk_unify_constant hVars hs (walk_bindTo hWalk _) rfl

/-! ### Attributes of any name -/

/-- An attribute is a property that pages show. -/
theorem shows_attributeNamed (n : String) (p : Page) : p.Shows (attributeNamed n) :=
  shows_property? (r := .attributeOf n) trivial rfl

/-- With the element chosen, an answer is about an attribute whose name unifies. -/
theorem vouches_attribute {n : String} {b' : Branch} (hWalk : b.substitution.walk element = .var x)
    (hName : (bindTo x (handleOf generation index) b).unify name (.str n) = some b')
    (value : Term) (p : Page) :
    (named (handleOf generation index) n value b').Vouches
      (Found element x b (fun p e b r => ∃ n b', b.unify name (.str n) = some b' ∧
        Leads (attributeNamed n) value p e b' r) generation) p := by
  refine vouches_resolve (shows_attributeNamed n) ?_ (fun _ _ h => h) p
  intro p' t r hGeneration hAlive hOutcome hVars hUnify
  refine ⟨hGeneration, handleOf generation index, ?_, hAlive, n, b', hName, t, hOutcome, hUnify⟩
  obtain ⟨s', hs', rfl⟩ := Option.map_eq_some_iff.mp hName
  obtain ⟨s, hs, rfl⟩ := Option.map_eq_some_iff.mp hUnify
  have hChosen : s'.walk element = .element (handleOf generation index) :=
    Substitution.walk_unify_constant (isData_str n).1 hs' (walk_bindTo hWalk _) rfl
  exact Substitution.walk_unify_constant hVars hs hChosen rfl

theorem vouches_carries (hWalk : b.substitution.walk element = .var x) (name value : Term)
    (c : Context) (p : Page) :
    (carries element name value c b).Vouches
      (Found element x b (fun p e b r => ∃ n b', b.unify name (.str n) = some b' ∧
        Leads (attributeNamed n) value p e b' r) p.generation) p := by
  unfold carries
  rw [binding_of_walk hWalk]
  rw [Search.Vouches]
  cases hName : b.substitution.walk name with
  | var y =>
      rw [binding_of_walk hName]
      refine vouches_eachCandidate (fun index p' => ?_) fun _ => rfl
      rw [unify_element hWalk]
      refine .each (fun n _ p'' => ?_) p'
      cases hUnify : (bindTo x (handleOf p.generation index) b).unify name (.str n) with
      | none => trivial
      | some b' => exact vouches_attribute hWalk hUnify value p''
  | str n =>
      have hBinding : Binding.of b.substitution name = .grounded (.str n) := by
        rw [Binding.of, hName]
      rw [hBinding]
      refine vouches_eachCandidate (fun index p' => ?_) fun _ => rfl
      rw [unify_element hWalk]
      have hKnown : (bindTo x (handleOf p.generation index) b).substitution.walk name = .str n :=
        Substitution.walk_push_constant hWalk rfl hName rfl
      have hUnify : (bindTo x (handleOf p.generation index) b).unify name (.str n) =
          some (bindTo x (handleOf p.generation index) b) := by
        rw [Branch.unify, Substitution.unify_atoms hKnown (Substitution.walk_of_not_isVar rfl)
          rfl rfl, if_pos rfl]
        rfl
      exact vouches_attribute hWalk hUnify value p'
  | _ =>
      unfold Binding.of
      rw [hName]
      trivial

/-! ### All of them -/

/-- A relation between an element and what a page shows of it is right about the page of each pull. -/
theorem Shown.vouches {g : Goal} {current : Page → Handle → Branch → Branch → Prop}
    (h : Shown element g current) (hWalk : b.substitution.walk element = .var x) (c : Context)
    (p : Page) : (g c b).Vouches (Found element x b current p.generation) p := by
  cases h with
  | property hFixed hProperty value =>
      rw [Binary.goal_of_property? hProperty]
      exact vouches_ofProperty hWalk (fun _ => shows_property? hFixed hProperty) value c p
  | @predicate r read hRead =>
      rw [Unary.goal_of_reading? hRead]
      refine (vouches_ofProperty hWalk (fun _ => shows_reading? hRead) (.bool true) c p).mono ?_
      rintro p' (error | r) hFound
      · exact hFound
      · obtain ⟨hGeneration, e, hChosen, hAlive, t, hOutcome, hUnify⟩ := hFound
        refine ⟨hGeneration, e, hChosen, hAlive, ?_⟩
        rw [holdingProperty, Reading.outcome_map] at hOutcome
        obtain ⟨yes, hYes, hEq⟩ := Reading.map_eq_ok_iff.mp hOutcome
        obtain rfl := Option.some.inj hEq
        rw [unify_bool] at hUnify
        cases yes with
        | false => cases hUnify
        | true => exact ⟨hYes, (Option.some.inj hUnify).symm⟩
  | carries name value => exact vouches_carries hWalk name value c p

/-- A search for an unknown element never answers with a dead one. Whatever happens between the pulls,
every answer binds the element to a handle that is alive on the page at the moment of the pull, and says
what the page shows of it then; and once another document is loaded after the first pull, all pulls find
the end. -/
theorem Shown.answers_alive {g : Goal} {current : Page → Handle → Branch → Branch → Prop}
    (h : Shown element g current) (hWalk : b.substitution.walk element = .var x) (c : Context)
    (p : Page) :
    (∀ events, ∀ seen ∈ (Session.mk (g c b) p).sightings events, ∀ r, seen.item = some (.ok r) →
      ∃ e, r.substitution.walk element = .element e ∧ seen.page.Alive e ∧
        current seen.page e (bindTo x e b) r) ∧
    ∀ front url source behind, .pull ∈ front →
      ∀ seen ∈ ((Session.mk (g c b) p).after
        (front ++ [.change (.navigate url source)])).sightings behind, seen.item = none := by
  have hVouches (p : Page) : (g c b).Vouches (Found element x b current p.generation) p :=
    h.vouches hWalk c p
  constructor
  · intro events seen hSeen r hr
    obtain ⟨_, _, hAnswer⟩ :=
      Session.sightings_settled (s := ⟨g c b, p⟩) hVouches events seen hSeen (.ok r) hr
    exact hAnswer
  · intro front url source behind hPull
    refine Session.sightings_after_navigate (s := ⟨g c b, p⟩) hVouches ?_ hPull url source behind
    rintro generation p' (error | r) hFound
    · exact hFound
    · exact hFound.1

/-- The attributes of the paragraphs of a page are sought by name and value. The first pull answers; if
the paragraph is then taken out, answers that still come are about others; and nothing is found any more
on another document. -/
theorem paragraph_answers_alive :
    let p := Page.load "https://example.org/" "<p id=a class=b>"
    let opened := Session.mk
      (carries (.var ⟨0⟩) (.var ⟨1⟩) (.var ⟨2⟩) ⟨⟨"p", "*"⟩⟩ (.start 3)) p
    (Branch.start 3).substitution.walk (.var ⟨0⟩) = .var ⟨0⟩ ∧
      (∃ r, opened.sightings [.pull] = [⟨p, some (.ok r)⟩]) ∧
      (∀ seen ∈ opened.sightings [.pull, .change (.detach (p.handle 3)), .pull], ∀ r,
        seen.item = some (.ok r) →
          ∃ e, r.substitution.walk (.var ⟨0⟩) = .element e ∧ seen.page.Alive e) ∧
      ∀ behind, ∀ seen ∈ (opened.after
        ([.pull] ++ [.change (.navigate "https://example.org/next" "<p id=a>")])).sightings behind,
        seen.item = none := by
  intro p opened
  have hWalk (x : Var) : (Branch.start 3).substitution.walk (.var x) = .var x :=
    Substitution.walk_of_unbound rfl
  obtain ⟨hAlive, hSilent⟩ :=
    (Shown.carries (.var ⟨1⟩) (.var ⟨2⟩)).answers_alive (hWalk ⟨0⟩) ⟨⟨"p", "*"⟩⟩ p
  refine ⟨hWalk ⟨0⟩, ?_, fun seen hSeen r hr => ?_, fun behind => ?_⟩
  · have hAnswers {q : Question} {x : q.Value} (h : (p.answer q).toOption = some x) :
        p.answer q = .ok x := by
      cases hAnswer : p.answer q with
      | error f => rw [hAnswer] at h; cases h
      | ok y => rw [hAnswer] at h; exact congrArg _ (Option.some.inj h)
    have hElements : p.answer (.elements "p") = .ok [p.handle 3] :=
      hAnswers (by decide +kernel)
    have hId : p.answer (.attribute (p.handle 3) "id") = .ok (some "a") :=
      hAnswers (by decide +kernel)
    let r₁ := bindTo ⟨0⟩ (p.handle 3) (.start 3)
    let r₂ := r₁.assign ⟨1⟩ (.str "id")
    have hName : r₁.unify (.var ⟨1⟩) (.str "id") = some r₂ :=
      unify_assign (Substitution.walk_of_unbound rfl) rfl
    have hValue : r₂.unify (.var ⟨2⟩) (.str "a") = some (r₂.assign ⟨2⟩ (.str "a")) :=
      unify_assign (Substitution.walk_of_unbound rfl) rfl
    have hFirst : (r₁.unify (.var ⟨1⟩) (.str "id")).elim [] (fun r =>
        itemsOf (.var ⟨2⟩) r ((attributeNamed "id" (p.handle 3)).outcome p.answer)) =
          [.ok (r₂.assign ⟨2⟩ (.str "a"))] := by
      rw [hName, Option.elim_some, attributeNamed, Reading.outcome_of, hId]
      simp only [Except.map, Option.map_some, itemsOf, hValue]
      rfl
    have hDelivers : opened.search.Delivers Page.oracle (Page.oracle.Steady p.answer) _ :=
      delivers_carries_unknown (hWalk ⟨0⟩) hElements
    rw [List.flatMap_singleton, binding_of_walk (hWalk ⟨1⟩), attributeItems, knownAttributes,
      List.flatMap_cons, hFirst, List.singleton_append] at hDelivers
    obtain ⟨rest, w, hPull, _⟩ := hDelivers.pull_cons (w := .of p) p.steady
    refine ⟨r₂.assign ⟨2⟩ (.str "a"), ?_⟩
    rw [Session.sightings, Session.step_pull, hPull]
    rfl
  · obtain ⟨e, hChosen, hAlive, _⟩ := hAlive _ seen hSeen r hr
    exact ⟨e, hChosen, hAlive⟩
  · exact hSilent [.pull] _ _ behind List.mem_cons_self

end PageLogic.Relation
