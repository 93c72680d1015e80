import PageLogic.Proofs.Page.Enumeration
import PageLogic.Proofs.Relation.Traffic
/-!
What a page is asked, and when. To apply a goal asks nothing. A run over the elements of the page asks
for them, and then reads one after the other up to the one that gives the last answer wanted or is
refused with a fault that ends the run.
-/
namespace PageLogic

open PageLogic.Relation

/-! ### Nothing before the first pull -/

namespace Goal

variable {g h : Goal} {gs : List Goal}

/-- Applying the goal puts every question off. -/
def Deferred (g : Goal) : Prop :=
  ∀ c b, (g c b).IsDeferred

theorem Deferred.conj (hg : g.Deferred) (h : Goal) : (g.conj h).Deferred :=
  fun c b => (hg c b).bind (h c)

theorem Deferred.disj (hg : g.Deferred) (h : Goal) : (g.disj h).Deferred :=
  fun c b => (hg c b).append trivial

theorem Deferred.foldl_conj (hg : g.Deferred) (gs : List Goal) :
    (gs.foldl Goal.conj g).Deferred := by
  induction gs generalizing g with
  | nil => exact hg
  | cons h rest ih => exact ih (hg.conj h)

/-- Only the first of several goals is applied at once. -/
theorem deferred_conjAll (h : ∀ g ∈ gs, g.Deferred) : (conjAll gs).Deferred := by
  cases gs with
  | nil => exact fun _ _ => trivial
  | cons g rest => exact (h g List.mem_cons_self).foldl_conj rest

theorem deferred_disjAll (h : ∀ g ∈ gs, g.Deferred) : (disjAll gs).Deferred := by
  cases gs with
  | nil => exact fun _ _ => trivial
  | cons g rest =>
      cases rest with
      | nil => exact h g List.mem_cons_self
      | cons h' rest => exact (h g List.mem_cons_self).disj _

end Goal

theorem Unary.deferred (r : Unary) (t : Term) : (r.goal t).Deferred := by
  intro c b
  cases r with
  | knownTag => exact Search.isDeferred_each _ _
  | knownAttribute => exact Search.isDeferred_each _ _
  | _ => trivial

theorem Binary.deferred (r : Binary) (t u : Term) : (r.goal t u).Deferred := by
  intro c b
  cases r <;> trivial

namespace Formula

mutual

/-- A formula of any form, overrides included, is applied without a question. -/
theorem deferred : ∀ (g : Formula) (ρ : Valuation), (g.goal ρ).Deferred
  | .succeed, _ | .fail, _ => fun _ _ => trivial
  | .eq _ _, _ => fun _ _ => Search.isDeferred_ofOption _
  | .memberOf _ _, _ => fun _ _ => Search.isDeferred_each _ _
  | .unary r t, ρ => r.deferred (t.replace ρ)
  | .binary r t u, ρ => r.deferred (t.replace ρ) (u.replace ρ)
  | .carries _ _ _, _ => fun _ _ => trivial
  | .conj g h, ρ => (deferred g ρ).conj (h.goal ρ)
  | .disj g h, ρ => (deferred g ρ).disj (h.goal ρ)
  | .conjAll gs, ρ => Goal.deferred_conjAll (deferredAll gs ρ)
  | .disjAll gs, ρ => Goal.deferred_disjAll (deferredAll gs ρ)
  | .fresh _ g, _ => fun c b => deferred g _ c b.fresh.2
  | .fresh2 _ _ g, _ => fun c b => deferred g _ c b.fresh.2.fresh.2
  | .once g, ρ => fun c b => (deferred g ρ c b).first
  | .withScope o g, ρ => fun c b => deferred g ρ ⟨c.scope.overridden o⟩ b

theorem deferredAll : ∀ (gs : List Formula) (ρ : Valuation), ∀ g ∈ goals gs ρ, g.Deferred
  | [], _ => by simp [goals]
  | g :: rest, ρ => by
    rw [goals]
    exact List.forall_mem_cons.mpr ⟨deferred g ρ, deferredAll rest ρ⟩

end

end Formula

/-! ### One question for each candidate -/

namespace Relation

variable {b : Branch} {element value : Term} {property : Property} {g : Goal} {a : Answers}

/-- The relations between an element and the answer to one question about it, with the property that
each of them reads: the relations of two arguments that are about a property of their own, an attribute
whose name is known on the branch, and the yes-or-no relations except presence, which asks twice. -/
inductive Probe (b : Branch) (element : Term) : (value : Term) → Property → Goal → Prop where
  | property {r : Binary} {property : Property} (h : r.property? = some property)
      (hOwn : ∀ p, r ≠ .property p) (value : Term) :
      Probe b element value property (r.goal element value)
  | carries {name : Term} {n : String} (h : Binding.of b.substitution name = .grounded (.str n))
      (value : Term) : Probe b element value (attributeNamed n) (carries element name value)
  | holding {r : Unary} {read : Handle → Reading Bool} (h : r.reading? = some read)
      (hPresent : r ≠ .present) :
      Probe b element (.bool true) (holdingProperty read) (r.goal element)

theorem Probe.eq_ofProperty (h : Probe b element value property g) (c : Context) :
    g c b = ofProperty property element value c b := by
  cases h with
  | property h => rw [Binary.goal_of_property? h]
  | carries h => exact carries_eq_ofProperty h element value
  | holding h => rw [Unary.goal_of_reading? h]

theorem Probe.goes_known (h : Probe b element value property g) {e : Handle}
    (hWalk : b.substitution.walk element = .element e) (a : Answers) (c : Context) :
    (g c b).Goes a (readingSteps a property value e b) := by
  rw [h.eq_ofProperty c]
  exact goes_ofProperty_known hWalk

theorem Probe.goes_unknown (h : Probe b element value property g) {x : Var}
    (hWalk : b.substitution.walk element = .var x) {c : Context} {candidates : List Handle}
    (hCandidates : a (.elements c.scope.root) = .ok candidates) :
    (g c b).Goes a (.asks (.elements c.scope.root) ::
      candidates.flatMap fun e => readingSteps a property value e (bindTo x e b)) := by
  rw [h.eq_ofProperty c]
  exact goes_ofProperty_unknown hWalk hCandidates

theorem Probe.goes_failed (h : Probe b element value property g) {x : Var}
    (hWalk : b.substitution.walk element = .var x) {c : Context} {f : Fault}
    (hFault : a (.elements c.scope.root) = .error f) :
    (g c b).Goes a [.asks (.elements c.scope.root), .delivers (.error (.oracle f))] := by
  rw [h.eq_ofProperty c]
  exact goes_ofProperty_failed hWalk hFault

theorem asksOnce_of {q : Handle → Question} {f : (e : Handle) → (q e).Value → Option Term} :
    AsksOnce fun e => .of (q e) (f e) := by
  intro a e
  cases h : a (q e) <;> simp [Reading.of, Reading.questions, h]

theorem asksOnce_holding {q : Handle → Question} {f : (e : Handle) → (q e).Value → Bool} :
    AsksOnce (holdingProperty fun e => .of (q e) (f e)) := by
  intro a e
  cases h : a (q e) <;>
    simp [holdingProperty, Reading.map, Reading.andThen, Reading.of, Reading.questions, h]

theorem Probe.asksOnce (h : Probe b element value property g) : AsksOnce property := by
  cases h with
  | @property r _ h hOwn =>
      cases r with
      | childOf => cases h
      | property p => exact absurd rfl (hOwn p)
      | _ =>
          obtain rfl := Option.some.inj h
          exact asksOnce_of
  | carries => exact asksOnce_of
  | @holding r _ h hPresent =>
      cases r with
      | present => exact absurd rfl hPresent
      | title | currentUrl | knownTag | knownAttribute => cases h
      | _ =>
          obtain rfl := Option.some.inj h
          exact asksOnce_holding

/-- A property gives at most one item. -/
theorem itemsOf_eq_nil_or_singleton (value : Term) (b : Branch) (r : Except Fault (Option Term)) :
    itemsOf value b r = [] ∨ ∃ item, itemsOf value b r = [item] := by
  cases r with
  | ok actual =>
      cases actual with
      | none => exact .inl rfl
      | some t =>
          rw [itemsOf]
          cases b.unify value t with
          | none => exact .inl rfl
          | some r => exact .inr ⟨.ok r, rfl⟩
  | error f =>
      rw [itemsOf]
      split
      · exact .inl rfl
      · exact .inr ⟨_, rfl⟩

/-- Of an element that is known, pulls take one question and at most one item. -/
theorem pullSteps_readingSteps (hOnce : AsksOnce property) (a : Answers) (value : Term) (e : Handle)
    (b : Branch) (n : Nat) :
    (Search.pullSteps (n + 1) (readingSteps a property value e b)).1.length ≤ 1 ∧
      (Search.pullSteps (n + 1) (readingSteps a property value e b)).2.length = 1 := by
  obtain ⟨q, hQuestion⟩ := List.length_eq_one_iff.mp (hOnce a e)
  unfold readingSteps
  rw [hQuestion]
  rcases itemsOf_eq_nil_or_singleton value b ((property e).outcome a) with hItems | ⟨item, hItems⟩
  · rw [hItems]
    exact ⟨Nat.zero_le _, rfl⟩
  · rw [hItems]
    cases n <;> exact ⟨Nat.le_refl _, rfl⟩

/-- So does a run, whatever it wants. -/
theorem visitSteps_readingSteps (hOnce : AsksOnce property) (a : Answers) (value : Term) (e : Handle)
    (b : Branch) (q : Term) (n : Nat) :
    let visited := Search.visitSteps (Goal.collect q) (readingSteps a property value e b)
      (.ok ⟨[], some (n + 1)⟩)
    (∀ collected, visited.1.value = .ok collected → collected.answers.length ≤ 1) ∧
      visited.2.length = 1 := by
  obtain ⟨question, hQuestion⟩ := List.length_eq_one_iff.mp (hOnce a e)
  unfold readingSteps
  rw [hQuestion]
  rcases itemsOf_eq_nil_or_singleton value b ((property e).outcome a) with hItems | ⟨item, hItems⟩
  · rw [hItems]
    refine ⟨fun collected h => ?_, rfl⟩
    obtain rfl := Except.ok.inj h
    exact Nat.zero_le _
  · rw [hItems]
    cases item with
    | error error => exact ⟨nofun, rfl⟩
    | ok r =>
        cases n <;>
        · refine ⟨fun collected h => ?_, rfl⟩
          obtain rfl := Except.ok.inj h
          exact Nat.le_refl _

end Relation

/-! ### What a page is asked -/

namespace Page

/-- The page after `n` more questions. -/
def askedMore (p : Page) (n : Nat) : Page :=
  { p with calls := p.calls + n }

theorem after_eq_askedMore (p : Page) (questions : List Question) :
    oracle.after questions p = p.askedMore questions.length := by
  induction questions generalizing p with
  | nil => rfl
  | cons q rest ih =>
      refine (ih (p.askedMore 1)).trans ?_
      simp only [askedMore, List.length_cons, Nat.add_assoc, Nat.add_comm 1]

variable {p : Page} {c : Context} {b : Branch} {value : Term} {property : Property}

/-- With the element unknown, a run asks for the elements, and then about each of them up to the one
that gives the last answer wanted or is refused. -/
theorem run_unknown {supply : Nat} {goal : Term → Goal} (p : Page) (c : Context)
    (h : Probe (.start (supply + 1)) (.var ⟨supply⟩) value property (goal (.var ⟨supply⟩))) :
    (Goal.run oracle c (some 0) supply goal (.of p)).2.state = p ∧
      ∀ n,
        let run := Goal.run oracle c (some (n + 1)) supply goal (.of p)
        match p.answer (.elements c.scope.root) with
        | .error f => run.1 = .error (.oracle f) ∧ run.2.state = p.askedMore 1
        | .ok candidates =>
          let gives := gives p.answer property ⟨supply⟩ value (.start (supply + 1))
          ∃ k, Reach gives (refuses p.answer property) candidates (n + 1) k ∧
            run.2.state = p.askedMore (1 + k) ∧
            ∀ answers, run.1 = .ok answers →
              answers.length = (candidates.take k).countP gives := by
  have hWalk : (Branch.start (supply + 1)).substitution.walk (.var ⟨supply⟩) = .var ⟨supply⟩ :=
    Substitution.walk_of_unbound rfl
  cases hElements : p.answer (.elements c.scope.root) with
  | error f =>
      obtain ⟨hNone, hSome⟩ :=
        Goal.run_eq_visitSteps (h.goes_failed hWalk hElements) (w := .of p) p.steady
      refine ⟨hNone, fun n => ⟨(hSome n).1, ?_⟩⟩
      rw [(hSome n).2, after_eq_askedMore]
      rfl
  | ok candidates =>
      obtain ⟨hNone, hSome⟩ :=
        Goal.run_eq_visitSteps (h.goes_unknown hWalk hElements) (w := .of p) p.steady
      refine ⟨hNone, fun n => ?_⟩
      obtain ⟨hReach, hLength⟩ := collect_candidates h.asksOnce (.var ⟨supply⟩) n []
      refine ⟨_, hReach, ?_, fun answers hAnswers => ?_⟩
      · rw [(hSome n).2, after_eq_askedMore, Search.visitSteps, List.length_cons, Nat.add_comm 1]
        rfl
      · rw [(hSome n).1] at hAnswers
        obtain ⟨collected, hCollected, hAnswered⟩ := Goal.length_of_answers hAnswers
        rw [hAnswered, hLength collected hCollected]
        exact Nat.zero_add _

/-- With the element known, a run that wants answers asks one question and has at most one answer. -/
theorem run_known {supply : Nat} {goal : Term → Goal} {e : Handle} (p : Page) (c : Context)
    (h : Probe (.start (supply + 1)) (.element e) value property (goal (.var ⟨supply⟩))) (n : Nat) :
    let run := Goal.run oracle c (some (n + 1)) supply goal (.of p)
    run.2.state = p.askedMore 1 ∧ ∀ answers, run.1 = .ok answers → answers.length ≤ 1 := by
  have hWalk : (Branch.start (supply + 1)).substitution.walk (.element e) = .element e :=
    Substitution.walk_of_not_isVar rfl
  obtain ⟨_, hSome⟩ :=
    Goal.run_eq_visitSteps (h.goes_known hWalk p.answer c) (w := .of p) p.steady
  obtain ⟨hAtMost, hQuestions⟩ := visitSteps_readingSteps h.asksOnce p.answer value e
    (.start (supply + 1)) (.var ⟨supply⟩) n
  refine ⟨?_, fun answers hAnswers => ?_⟩
  · rw [(hSome n).2, after_eq_askedMore, hQuestions]
    rfl
  · rw [(hSome n).1] at hAnswers
    obtain ⟨collected, hCollected, hLength⟩ := Goal.length_of_answers hAnswers
    exact hLength ▸ hAtMost collected hCollected

/-- So do pulls, on a branch on which the element is known. -/
theorem pullsTo_known {element : Term} {g : Goal} {e : Handle} (p : Page) (c : Context)
    (h : Probe b element value property g) (hWalk : b.substitution.walk element = .element e)
    (n : Nat) :
    ((g c b).pullsTo oracle (n + 1) (.of p)).1.length ≤ 1 ∧
      ((g c b).pullsTo oracle (n + 1) (.of p)).2.state = p.askedMore 1 := by
  obtain ⟨hItems, hState⟩ :=
    (h.goes_known hWalk p.answer c).pullsTo_eq (n + 1) (w := .of p) p.steady
  obtain ⟨hAtMost, hQuestions⟩ := pullSteps_readingSteps h.asksOnce p.answer value e b n
  rw [hItems, hState, after_eq_askedMore, hQuestions]
  exact ⟨hAtMost, rfl⟩

/-- A page is asked what the answers need. Applying a goal asks nothing. A run over unknown elements
asks for them, and then about each of them up to the one that gives the last answer wanted or is
refused; with the element known, one question is all. -/
theorem asks_what_answers_need (p : Page) :
    (∀ (g : Formula) (ρ : Valuation) (c : Context) (b : Branch),
      (g.goal ρ c b).begin oracle (.of p) = (g.goal ρ c b, .of p)) ∧
    (∀ (c : Context) (supply : Nat) (value : Term) (property : Property) (goal : Term → Goal),
      Probe (.start (supply + 1)) (.var ⟨supply⟩) value property (goal (.var ⟨supply⟩)) →
      (Goal.run oracle c (some 0) supply goal (.of p)).2.state = p ∧
        ∀ n,
          let run := Goal.run oracle c (some (n + 1)) supply goal (.of p)
          match p.answer (.elements c.scope.root) with
          | .error f => run.1 = .error (.oracle f) ∧ run.2.state = p.askedMore 1
          | .ok candidates =>
            let gives := gives p.answer property ⟨supply⟩ value (.start (supply + 1))
            ∃ k, Reach gives (refuses p.answer property) candidates (n + 1) k ∧
              run.2.state = p.askedMore (1 + k) ∧
              ∀ answers, run.1 = .ok answers →
                answers.length = (candidates.take k).countP gives) ∧
    (∀ (c : Context) (supply : Nat) (e : Handle) (value : Term) (property : Property)
        (goal : Term → Goal),
      Probe (.start (supply + 1)) (.element e) value property (goal (.var ⟨supply⟩)) →
      ∀ n,
        let run := Goal.run oracle c (some (n + 1)) supply goal (.of p)
        run.2.state = p.askedMore 1 ∧ ∀ answers, run.1 = .ok answers → answers.length ≤ 1) ∧
    ∀ (c : Context) (b : Branch) (element : Term) (e : Handle) (value : Term) (property : Property)
        (g : Goal),
      Probe b element value property g → b.substitution.walk element = .element e → ∀ n,
        ((g c b).pullsTo oracle (n + 1) (.of p)).1.length ≤ 1 ∧
          ((g c b).pullsTo oracle (n + 1) (.of p)).2.state = p.askedMore 1 :=
  ⟨fun g ρ c b => (g.deferred ρ c b).begin_eq oracle (.of p), fun c _ _ _ _ h => run_unknown p c h,
    fun c _ _ _ _ _ h => run_known p c h, fun c _ _ _ _ _ _ h => pullsTo_known p c h⟩

/-- Four answers are given by the first five elements, as the box among them that is disabled gives
none. The heading behind them is not asked about. -/
theorem asks_what_answers_need_enabled :
    let p := load "https://example.org/" "<input disabled><input><h1></h1>"
    Probe (.start 1) (.var ⟨0⟩) (.bool true) (holdingProperty fun e => .of (.enabled e) id)
        (Relation.enabled (.var ⟨0⟩)) ∧
      p.answer (.elements "*") = .ok ((List.range 6).map p.handle) ∧
      (Goal.run oracle ⟨.everything⟩ (some 4) 0 Relation.enabled (.of p)).2.state =
        p.askedMore (1 + 5) := by
  intro p
  have hProbe : Probe (.start 1) (.var ⟨0⟩) (.bool true)
      (holdingProperty fun e => .of (.enabled e) id) (Relation.enabled (.var ⟨0⟩)) :=
    .holding (r := .enabled) rfl nofun
  have hElements : p.answer (.elements "*") = .ok ((List.range 6).map p.handle) := by
    rw [answer_elements_star, matching_eq_map_attached (by decide +kernel)]
    exact congrArg _ (by decide +kernel)
  have hRun := ((asks_what_answers_need p).2.1 ⟨.everything⟩ 0 _ _ Relation.enabled hProbe).2 3
  simp only [Scope.everything, hElements] at hRun
  obtain ⟨k, hReach, hState, _⟩ := hRun
  have hFive : Reach
      (gives p.answer (holdingProperty fun e => .of (.enabled e) id) ⟨0⟩ (.bool true) (.start 1))
      (refuses p.answer (holdingProperty fun e => .of (.enabled e) id))
      ((List.range 6).map p.handle) 4 5 :=
    .inl ⟨4, rfl, by decide +kernel, by decide +kernel⟩
  obtain rfl := hReach.unique hFive
  exact ⟨hProbe, hElements, hState⟩

end Page

end PageLogic
