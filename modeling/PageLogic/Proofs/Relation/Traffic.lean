import PageLogic.Proofs.Relation.Facts
import PageLogic.Proofs.Search.Traffic
/-!
What relations ask. A relation enumerates in the scope that it is given. With an unknown element it
enumerates once and then reads one candidate after the other, so that a run which stops early has read
no candidate behind the one at which it stopped.
-/
namespace PageLogic

open PageLogic.Relation

/-- The question enumerates in this scope, if it enumerates at all. -/
def Question.IsWithin (s : Scope) : Question → Prop
  | .elements selector => selector = s.root
  | .descendants _ selector => selector = s.child
  | _ => True

namespace Relation

variable {c : Context} {b : Branch} {P : Question → Prop} {property : Property}

/-! ### Whatever the answers -/

theorem asks_onAnswer {α : Type} {f : α → Search} (hf : ∀ x, (f x).Asks P)
    (r : Except Fault α) : (onAnswer f r).Asks P := by
  cases r with
  | ok x => exact hf x
  | error e =>
      rw [onAnswer]
      split <;> trivial

theorem asks_resolve {e : Handle} (h : ∀ q, (property e).CanAsk q → P q) (value : Term)
    (b : Branch) : (resolve property e value b).Asks P := by
  refine .read h (asks_onAnswer fun actual => ?_)
  cases actual with
  | none => trivial
  | some t => exact .ofOption _

theorem asks_eachCandidate {f : Handle → Search} (hRoot : P (.elements c.scope.root))
    (hf : ∀ e, (f e).Asks P) : (eachCandidate c f).Asks P := by
  refine ⟨hRoot, fun r => ?_⟩
  cases r with
  | ok candidates => exact .each hf
  | error e => trivial

/-- Of an unknown element every candidate is read. -/
theorem asks_chosen {f : Handle → Branch → Search} {element : Term}
    (hRoot : P (.elements c.scope.root)) (hf : ∀ e b, (f e b).Asks P) (b : Branch) :
    (eachCandidate c fun e =>
      match b.unify element (.element e) with
      | some b => f e b
      | none => .done).Asks P := by
  refine asks_eachCandidate hRoot fun e => ?_
  split
  · exact hf e _
  · trivial

theorem asks_ofProperty (hRoot : P (.elements c.scope.root))
    (h : ∀ e q, (property e).CanAsk q → P q) (element value : Term) (b : Branch) :
    (ofProperty property element value c b).Asks P := by
  unfold ofProperty
  rw [Search.Asks]
  split
  · exact asks_resolve (h _) value b
  · trivial
  · exact asks_chosen hRoot (fun e b => asks_resolve (h e) value b) b

theorem asks_attributeOn {e : Handle} (h : ∀ n, P (.attribute e n)) (binding : Binding)
    (name value : Term) (b : Branch) : (attributeOn e binding name value b).Asks P := by
  have hNamed (n : String) (b : Branch) : (named e n value b).Asks P := by
    refine asks_resolve (fun q hq => ?_) value b
    rw [Reading.canAsk_of hq]
    exact h n
  unfold attributeOn
  split
  · exact hNamed _ b
  · trivial
  · refine .each fun n => ?_
    split
    · exact hNamed n _
    · trivial

theorem asks_carries (hRoot : P (.elements c.scope.root)) (h : ∀ e n, P (.attribute e n))
    (element name value : Term) (b : Branch) : (carries element name value c b).Asks P := by
  have hOn (binding : Binding) (e : Handle) (b : Branch) :
      (attributeOn e binding name value b).Asks P :=
    asks_attributeOn (h e) binding name value b
  unfold carries
  rw [Search.Asks]
  dsimp only
  split
  · exact hOn _ _ b
  · exact hOn _ _ b
  · exact asks_chosen hRoot (hOn _) b
  · exact asks_chosen hRoot (hOn _) b
  · trivial

theorem asks_childOf (hRoot : P (.elements c.scope.root))
    (h : ∀ p, P (.descendants p c.scope.child)) (child parent : Term) (b : Branch) :
    (childOf child parent c b).Asks P := by
  have hBind (p : Handle) (b : Branch) : (bindBeneath c child p b).Asks P :=
    ⟨h p, asks_onAnswer fun _ => .each fun _ => .ofOption _⟩
  unfold childOf
  rw [Search.Asks]
  split
  · refine ⟨h _, asks_onAnswer fun below => ?_⟩
    split <;> trivial
  · exact hBind _ b
  · exact asks_chosen hRoot hBind b
  · exact asks_chosen hRoot hBind b
  · trivial

theorem asks_pageFact {read : Reading String} (h : ∀ q, read.CanAsk q → P q) (value : Term)
    (c : Context) (b : Branch) : (pageFact read value c b).Asks P :=
  .read h (asks_onAnswer fun _ => .ofOption _)

/-! ### With fixed answers -/

section Goes

variable {a : Answers} {element value : Term} {e : Handle} {x : Var} {candidates : List Handle}

/-- What reading the property of one element takes and gives. -/
def readingSteps (a : Answers) (property : Property) (value : Term) (e : Handle) (b : Branch) :
    List Search.Step :=
  ((property e).questions a).map .asks ++ (itemsOf value b ((property e).outcome a)).map .delivers

theorem goes_resolve (a : Answers) (property : Property) (e : Handle) (value : Term) (b : Branch) :
    (resolve property e value b).Goes a (readingSteps a property value e b) := by
  refine .read ?_
  cases (property e).outcome a with
  | ok actual =>
      cases actual with
      | none => exact .done
      | some t =>
          rw [itemsOf, List.map_map]
          exact .ofOption _
  | error f =>
      rw [itemsOf, onAnswer]
      split
      · exact .done
      · exact .failure _

/-- With the element known, its property is read. -/
theorem goes_ofProperty_known (h : b.substitution.walk element = .element e) :
    (ofProperty property element value c b).Goes a (readingSteps a property value e b) := by
  unfold ofProperty Binding.of
  rw [h]
  exact (goes_resolve a property e value b).delay

/-- With the element unknown, the candidates are enumerated, and then read one after the other. -/
theorem goes_ofProperty_unknown (h : b.substitution.walk element = .var x)
    (hCandidates : a (.elements c.scope.root) = .ok candidates) :
    (ofProperty property element value c b).Goes a
      (.asks (.elements c.scope.root) ::
        candidates.flatMap fun e => readingSteps a property value e (bindTo x e b)) := by
  unfold ofProperty
  rw [binding_of_walk h]
  refine .delay (.ask ?_)
  rw [hCandidates]
  refine .each fun e => ?_
  rw [unify_element h]
  exact goes_resolve a property e value _

theorem goes_ofProperty_failed (h : b.substitution.walk element = .var x) {f : Fault}
    (hFault : a (.elements c.scope.root) = .error f) :
    (ofProperty property element value c b).Goes a
      [.asks (.elements c.scope.root), .delivers (.error (.oracle f))] := by
  unfold ofProperty
  rw [binding_of_walk h]
  refine .delay (.ask ?_)
  rw [hFault]
  exact .failure _

/-! #### How far a run gets -/

/-- The candidate gives an answer: the value of its property unifies. -/
def gives (a : Answers) (property : Property) (x : Var) (value : Term) (b : Branch) (e : Handle) :
    Bool :=
  match (property e).outcome a with
  | .ok (some t) => ((bindTo x e b).unify value t).isSome
  | _ => false

/-- The candidate is refused with a fault that ends a search. -/
def refuses (a : Answers) (property : Property) (e : Handle) : Bool :=
  match (property e).outcome a with
  | .ok _ => false
  | .error f => !f.isRecognized

/-- The candidate at this place, counted from zero, is refused, or it gives the answer that makes them
`n`. -/
def Concludes (gives refuses : Handle → Bool) (candidates : List Handle) (n i : Nat) : Prop :=
  ∃ e ∈ candidates[i]?,
    refuses e = true ∨ gives e = true ∧ (candidates.take (i + 1)).countP gives = n

instance (gives refuses : Handle → Bool) (candidates : List Handle) (n i : Nat) :
    Decidable (Concludes gives refuses candidates n i) :=
  inferInstanceAs (Decidable (∃ e ∈ candidates[i]?, _))

/-- The first `k` candidates reach up to the first that concludes, or they are all, and none does. -/
def Reach (gives refuses : Handle → Bool) (candidates : List Handle) (n k : Nat) : Prop :=
  (∃ i, k = i + 1 ∧ Concludes gives refuses candidates n i ∧
      ∀ j < i, ¬ Concludes gives refuses candidates n j) ∨
    (k = candidates.length ∧ ∀ i, ¬ Concludes gives refuses candidates n i)

section Reach

variable {yes no : Handle → Bool} {n k : Nat}

theorem concludes_zero :
    Concludes yes no (e :: candidates) n 0 ↔ no e = true ∨ yes e = true ∧ n = 1 := by
  simp only [Concludes, List.getElem?_cons_zero, Option.mem_some_iff, exists_eq_left', Nat.zero_add,
    List.take_succ_cons, List.take_zero, List.countP_singleton]
  refine or_congr_right (and_congr_right fun hYes => ?_)
  rw [if_pos hYes]
  exact eq_comm

theorem concludes_succ (i : Nat) :
    Concludes yes no (e :: candidates) (n + if yes e then 1 else 0) (i + 1) ↔
      Concludes yes no candidates n i := by
  simp only [Concludes, List.getElem?_cons_succ, List.take_succ_cons, List.countP_cons,
    Nat.add_right_cancel_iff]

theorem reach_one (h : no e = true ∨ yes e = true ∧ n = 1) :
    Reach yes no (e :: candidates) n 1 :=
  .inl ⟨0, rfl, concludes_zero.mpr h, fun _ hj => absurd hj (Nat.not_lt_zero _)⟩

/-- A candidate that does not conclude is passed. -/
theorem Reach.cons (h : Reach yes no candidates n k) (hNo : no e = false) (hn : n ≠ 0) :
    Reach yes no (e :: candidates) (n + if yes e then 1 else 0) (k + 1) := by
  have hFirst : ¬ Concludes yes no (e :: candidates) (n + if yes e then 1 else 0) 0 := by
    rw [concludes_zero, hNo]
    rintro (hNo | ⟨hYes, hOne⟩)
    · cases hNo
    · rw [if_pos hYes] at hOne
      omega
  rcases h with ⟨i, rfl, hConcludes, hBefore⟩ | ⟨rfl, hNone⟩
  · refine .inl ⟨i + 1, rfl, (concludes_succ i).mpr hConcludes, fun j hj => ?_⟩
    cases j with
    | zero => exact hFirst
    | succ j =>
        rw [concludes_succ]
        exact hBefore j (Nat.lt_of_succ_lt_succ hj)
  · refine .inr ⟨rfl, fun i => ?_⟩
    cases i with
    | zero => exact hFirst
    | succ i =>
        rw [concludes_succ]
        exact hNone i

/-- There is one number of candidates to read. -/
theorem Reach.unique {k' : Nat} (h : Reach yes no candidates n k)
    (h' : Reach yes no candidates n k') : k = k' := by
  rcases h with ⟨i, rfl, hConcludes, hBefore⟩ | ⟨rfl, hNone⟩
  · rcases h' with ⟨j, rfl, hConcludes', hBefore'⟩ | ⟨_, hNone'⟩
    · rcases Nat.lt_trichotomy i j with hLt | rfl | hGt
      · exact absurd hConcludes (hBefore' i hLt)
      · rfl
      · exact absurd hConcludes' (hBefore j hGt)
    · exact absurd hConcludes (hNone' i)
  · rcases h' with ⟨j, _, hConcludes', _⟩ | ⟨rfl, _⟩
    · exact absurd hConcludes' (hNone j)
    · rfl

end Reach

/-- A candidate gives one answer, or is refused, or neither. -/
theorem items_cases (a : Answers) (property : Property) (x : Var) (value : Term) (b : Branch)
    (e : Handle) :
    (itemsOf value (bindTo x e b) ((property e).outcome a) = [] ∧
        gives a property x value b e = false ∧ refuses a property e = false) ∨
      (∃ r, itemsOf value (bindTo x e b) ((property e).outcome a) = [.ok r] ∧
        gives a property x value b e = true ∧ refuses a property e = false) ∨
      ∃ error, itemsOf value (bindTo x e b) ((property e).outcome a) = [.error error] ∧
        refuses a property e = true := by
  unfold gives refuses
  cases (property e).outcome a with
  | ok actual =>
      cases actual with
      | none => exact .inl ⟨rfl, rfl, rfl⟩
      | some t =>
          cases hUnify : (bindTo x e b).unify value t with
          | none => exact .inl (by simp [itemsOf, hUnify])
          | some r => exact .inr (.inl ⟨r, by simp [itemsOf, hUnify]⟩)
  | error f =>
      cases hRecognized : f.isRecognized with
      | true => exact .inl ⟨itemsOf_recognized hRecognized value _, rfl, by simp [hRecognized]⟩
      | false => exact .inr (.inr ⟨.oracle f, by simp [itemsOf, hRecognized], by simp [hRecognized]⟩)

/-- The property of an element is read by one question. -/
def AsksOnce (property : Property) : Prop :=
  ∀ (a : Answers) (e : Handle), ((property e).questions a).length = 1

/-- A run reads the candidates up to the one that gives the last answer wanted or is refused, and its
answers are those that these candidates give. -/
theorem collect_candidates (hOnce : AsksOnce property) (q : Term) (n : Nat) (found : List Term) :
    let visited := Search.visitSteps (Goal.collect q)
      (candidates.flatMap fun e => readingSteps a property value e (bindTo x e b))
      (.ok ⟨found, some (n + 1)⟩)
    Reach (gives a property x value b) (refuses a property) candidates (n + 1) visited.2.length ∧
      ∀ collected, visited.1.value = .ok collected → collected.answers.length =
        found.length + (candidates.take visited.2.length).countP (gives a property x value b) := by
  induction candidates generalizing n found with
  | nil =>
      refine ⟨.inr ⟨rfl, fun i => by simp [Concludes]⟩, fun collected h => ?_⟩
      obtain rfl := Except.ok.inj h
      rfl
  | cons e rest ih =>
      intro visited
      have hVisited : visited = Search.visitSteps (Goal.collect q)
          (((property e).questions a).map .asks ++
            ((itemsOf value (bindTo x e b) ((property e).outcome a)).map .delivers ++
              rest.flatMap fun e => readingSteps a property value e (bindTo x e b)))
          (.ok ⟨found, some (n + 1)⟩) := by
        rw [← List.append_assoc]
        rfl
      rw [hVisited, Search.visitSteps_asks, List.length_append, hOnce a e, Nat.add_comm 1]
      simp only [List.take_succ_cons, List.countP_cons]
      rcases items_cases a property x value b e with
        ⟨hItems, hGives, hRefuses⟩ | ⟨r, hItems, hGives, hRefuses⟩ | ⟨error, hItems, hRefuses⟩
      · obtain ⟨hReach, hLength⟩ := ih n found
        have hPassed := hReach.cons hRefuses (Nat.succ_ne_zero n)
        rw [hGives] at hPassed
        rw [hItems, hGives]
        exact ⟨hPassed, hLength⟩
      · rw [hItems, hGives, List.map_singleton, List.singleton_append, Search.visitSteps,
          Goal.collect]
        cases n with
        | zero =>
            refine ⟨reach_one (.inr ⟨hGives, rfl⟩), fun collected h => ?_⟩
            obtain rfl := Except.ok.inj h
            rfl
        | succ n =>
            obtain ⟨hReach, hLength⟩ := ih n (r.reify q :: found)
            have hPassed := hReach.cons hRefuses (Nat.succ_ne_zero n)
            rw [hGives] at hPassed
            have hMore : ¬ n + 1 + 1 ≤ 1 := by omega
            simp only [hMore, ↓reduceIte, Nat.add_sub_cancel]
            refine ⟨hPassed, fun collected h => ?_⟩
            rw [hLength collected h, List.length_cons]
            omega
      · rw [hItems, List.map_singleton, List.singleton_append, Search.visitSteps, Goal.collect]
        refine ⟨reach_one (.inl hRefuses), fun collected h => ?_⟩
        cases h

end Goes

end Relation

/-- A yes-or-no relation enumerates in the scope that it is given. -/
theorem Unary.asks (r : Unary) (t : Term) (c : Context) (b : Branch) :
    (r.goal t c b).Asks (Question.IsWithin c.scope) := by
  have hPage (q : Question) (hq : q.IsWithin c.scope) (f : q.Value → String) :
      (pageFact (.of q f) t c b).Asks (Question.IsWithin c.scope) :=
    asks_pageFact (fun _ h => Reading.canAsk_of h ▸ hq) t c b
  have hWords (words : List Term) :
      (Goal.memberOf t words c b).Asks (Question.IsWithin c.scope) :=
    .each fun _ => .ofOption _
  have hHolding {read : Handle → Reading Bool} (hRead : r.reading? = some read)
      (h : ∀ e q, (read e).CanAsk q → q.IsWithin c.scope) :
      (r.goal t c b).Asks (Question.IsWithin c.scope) := by
    rw [Unary.goal_of_reading? hRead]
    have hRoot : (Question.elements c.scope.root).IsWithin c.scope := rfl
    exact asks_ofProperty hRoot (fun e q hq => h e q (Reading.canAsk_map hq)) t _ b
  cases r with
  | title => exact hPage .title trivial id
  | currentUrl => exact hPage .currentUrl trivial id
  | knownTag => exact hWords _
  | knownAttribute => exact hWords _
  | present =>
      refine hHolding rfl fun e q hq => ?_
      rcases Reading.canAsk_andThen hq with hq | ⟨there, hq⟩
      · rw [Reading.canAsk_of hq]
        trivial
      · cases there with
        | false => exact hq.elim
        | true =>
            rw [Reading.canAsk_of hq]
            trivial
  | _ =>
      refine hHolding rfl fun e q hq => ?_
      rw [Reading.canAsk_of hq]
      trivial

/-- So does a relation of two arguments, apart from what a property asks when it is read. -/
theorem Binary.asks (r : Binary) (t u : Term) (c : Context) (b : Branch) :
    (r.goal t u c b).Asks fun q =>
      q.IsWithin c.scope ∨ ∃ p, r = .property p ∧ ∃ e, (p e).CanAsk q := by
  cases hProperty : r.property? with
  | none =>
      cases r with
      | childOf => exact asks_childOf (.inl rfl) (fun _ => .inl rfl) t u b
      | _ => cases hProperty
  | some property =>
      rw [Binary.goal_of_property? hProperty]
      refine asks_ofProperty (.inl rfl) (fun e q hq => ?_) t u b
      cases r with
      | property p =>
          obtain rfl := Option.some.inj hProperty
          exact .inr ⟨p, rfl, e, hq⟩
      | childOf => cases hProperty
      | _ =>
          obtain rfl := Option.some.inj hProperty
          rw [Reading.canAsk_of hq]
          exact .inl trivial

end PageLogic
