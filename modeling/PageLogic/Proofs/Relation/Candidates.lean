import PageLogic.Proofs.Search.Delivery
import PageLogic.Proofs.Substitution.Walk
import PageLogic.Relation.Attribute
/-!
What a relation makes of the elements that it enumerates. With the element unknown, every candidate
gives an answer, nothing or a failure of its own, in the order of the enumeration; a fault of one
candidate leaves the items of the others as they are.
-/
namespace PageLogic

namespace Term

/-- Whether the term is an element, or a variable that could be one. -/
def mayBeElement : Term → Bool
  | .var _ | .element _ => true
  | _ => false

theorem mayBeElement_of_isVar {t : Term} (h : t.isVar = true) : t.mayBeElement = true := by
  cases t <;> first | rfl | cases h

theorem exists_element_of_mayBeElement {t : Term} (h : t.mayBeElement = true)
    (hVar : t.isVar = false) : ∃ e, t = .element e := by
  cases t with
  | element e => exact ⟨e, rfl⟩
  | var => cases hVar
  | _ => cases h

end Term

namespace Relation

variable {σ : Type} {o : Oracle σ} {a : Answers} {c : Context} {b : Branch}

/-- The property of carrying an attribute of this name. -/
def attributeNamed (name : String) : Property := fun e =>
  .of (.attribute e name) fun (a : Option String) => a.map .str

/-- What a branch makes of a property once it has been read: one answer if the value unifies, nothing
if it does not, if there is none or if the fault is a recognized one, and a failure otherwise. -/
def itemsOf (value : Term) (b : Branch) : Except Fault (Option Term) → List Item
  | .ok (some actual) => (b.unify value actual).toList.map Except.ok
  | .ok none => []
  | .error f => if f.isRecognized then [] else [.error (.oracle f)]

theorem delivers_resolve (property : Property) (e : Handle) (value : Term) (b : Branch) :
    (resolve property e value b).Delivers o (o.Steady a)
      (itemsOf value b ((property e).outcome a)) := by
  refine .read ?_
  cases (property e).outcome a with
  | ok actual =>
      cases actual with
      | none => exact .done
      | some t => exact .ofOption _
  | error f =>
      cases hRecognized : f.isRecognized with
      | true =>
          simp only [onAnswer, itemsOf, hRecognized, ↓reduceIte]
          exact .done
      | false =>
          simp only [onAnswer, itemsOf, hRecognized, Bool.false_eq_true, ↓reduceIte]
          exact .failure _

theorem delivers_eachCandidate {f : Handle → Search} {items : Handle → List Item}
    {candidates : List Handle} (hCandidates : a (.elements c.scope.root) = .ok candidates)
    (hf : ∀ e ∈ candidates, (f e).Delivers o (o.Steady a) (items e)) :
    (eachCandidate c f).Delivers o (o.Steady a) (candidates.flatMap items) := by
  refine .ask (o.replies_of_steady a _) ?_
  rw [hCandidates]
  exact .each hf

/-- Every fault of the enumeration is a failure. -/
theorem delivers_eachCandidate_error {f : Handle → Search} {fault : Fault}
    (hFault : a (.elements c.scope.root) = .error fault) :
    (eachCandidate c f).Delivers o (o.Steady a) [.error (.oracle fault)] := by
  refine .ask (o.replies_of_steady a _) ?_
  rw [hFault]
  exact .failure _

/-- An attribute whose name is known is a property. -/
theorem carries_eq_ofProperty {name : Term} {n : String}
    (hName : Binding.of b.substitution name = .grounded (.str n)) (element value : Term) :
    carries element name value c b = ofProperty (attributeNamed n) element value c b := by
  unfold carries ofProperty
  rw [hName]
  cases Binding.of b.substitution element with
  | fresh => rfl
  | grounded t => cases t <;> rfl

/-- The relations between an element and a property of it, and how they read that property on a
branch: any property, or the attribute of a name that is known there. -/
inductive Reads (b : Branch) : Property → (element value : Term) → Goal → Prop where
  | ofProperty (property : Property) (element value : Term) :
      Reads b property element value (ofProperty property element value)
  | carries {name : Term} {n : String}
      (hName : Binding.of b.substitution name = .grounded (.str n)) (element value : Term) :
      Reads b (attributeNamed n) element value (carries element name value)

variable {property : Property} {element value : Term} {g : Goal} {x : Var}

theorem Reads.eq_ofProperty (h : Reads b property element value g) (c : Context) :
    g c b = Relation.ofProperty property element value c b := by
  cases h with
  | ofProperty => rfl
  | carries hName => exact carries_eq_ofProperty hName element value

/-- The branch on which an unbound variable stands for an element. -/
def bindTo (x : Var) (e : Handle) (b : Branch) : Branch :=
  { b with substitution := b.substitution.push x (.element e) }

/-- An unknown element can be any. -/
theorem unify_element (h : b.substitution.walk element = .var x) (e : Handle) :
    b.unify element (.element e) = some (bindTo x e b) := by
  rw [Branch.unify, Substitution.unify_atom h rfl]
  rfl

/-- Once bound to an element, the term stands for it. -/
theorem walk_bindTo (h : b.substitution.walk element = .var x) (e : Handle) :
    (bindTo x e b).substitution.walk element = .element e :=
  Substitution.walk_push_self h rfl

theorem unify_bool (b : Branch) (yes : Bool) :
    b.unify (.bool true) (.bool yes) = if yes then some b else none := by
  have hWalk (yes : Bool) : b.substitution.walk (.bool yes) = .bool yes :=
    Substitution.walk_of_not_isVar rfl
  rw [Branch.unify, Substitution.unify_atoms (hWalk true) (hWalk yes) rfl rfl]
  cases yes <;> rfl

theorem binding_of_walk (h : b.substitution.walk element = .var x) :
    Binding.of b.substitution element = .fresh := by
  rw [Binding.of, h]

/-- What is known to be no element is grounded. -/
theorem binding_of_not_mayBeElement (h : (b.substitution.walk element).mayBeElement = false) :
    ∃ t, Binding.of b.substitution element = .grounded t ∧ ∀ e, t ≠ .element e := by
  unfold Binding.of
  cases hWalk : b.substitution.walk element with
  | var | element =>
      rw [hWalk] at h
      cases h
  | _ => exact ⟨_, rfl, by simp⟩

/-- With the element known, its property decides. -/
theorem delivers_ofProperty_known {e : Handle} (h : b.substitution.walk element = .element e) :
    (ofProperty property element value c b).Delivers o (o.Steady a)
      (itemsOf value b ((property e).outcome a)) := by
  unfold ofProperty Binding.of
  rw [h]
  exact (delivers_resolve property e value b).delay

/-- What is known to be no element has no property. -/
theorem delivers_ofProperty_other (h : (b.substitution.walk element).mayBeElement = false) :
    (ofProperty property element value c b).Delivers o (o.Steady a) [] := by
  obtain ⟨t, hOther, hElement⟩ := binding_of_not_mayBeElement h
  unfold ofProperty
  rw [hOther]
  cases t with
  | element e => exact absurd rfl (hElement e)
  | _ => exact .delay .done

/-- The items that a candidate gives rise to. -/
def candidateItems (a : Answers) (property : Property) (x : Var) (value : Term) (b : Branch)
    (e : Handle) : List Item :=
  itemsOf value (bindTo x e b) ((property e).outcome a)

/-- With the element unknown, the items of the candidates stand one after the other. -/
theorem delivers_candidates (h : b.substitution.walk element = .var x) {candidates : List Handle}
    (hCandidates : a (.elements c.scope.root) = .ok candidates) :
    (ofProperty property element value c b).Delivers o (o.Steady a)
      (candidates.flatMap (candidateItems a property x value b)) := by
  unfold ofProperty
  rw [binding_of_walk h]
  refine .delay (delivers_eachCandidate hCandidates fun e _ => ?_)
  rw [unify_element h]
  exact delivers_resolve property e value _

/-- With the element unknown, a failed enumeration is the only item. -/
theorem delivers_failed_enumeration (h : b.substitution.walk element = .var x) {fault : Fault}
    (hFault : a (.elements c.scope.root) = .error fault) :
    (ofProperty property element value c b).Delivers o (o.Steady a) [.error (.oracle fault)] := by
  unfold ofProperty
  rw [binding_of_walk h]
  exact .delay (delivers_eachCandidate_error hFault)

/-- A candidate without a fault of the unrecognized kind has no failures. -/
theorem itemsOf_eq_answers {r : Except Fault (Option Term)}
    (h : ∀ f, r = .error f → f.isRecognized = true) (value : Term) (b : Branch) :
    ∃ bs : List Branch, itemsOf value b r = bs.map Except.ok := by
  cases r with
  | ok actual =>
      cases actual with
      | none => exact ⟨[], rfl⟩
      | some t => exact ⟨_, rfl⟩
  | error f => exact ⟨[], by simp [itemsOf, h f rfl]⟩

/-- A recognized fault leaves no items. -/
theorem itemsOf_recognized {f : Fault} (h : f.isRecognized = true) (value : Term) (b : Branch) :
    itemsOf value b (.error f) = [] := by
  simp [itemsOf, h]

/-- After the candidates `before` comes the first one whose property is refused with an unrecognized
fault, which is `f`. -/
def FirstRefusal (a : Answers) (property : Property) (candidates before : List Handle) (f : Fault) :
    Prop :=
  ∃ e behind, candidates = before ++ e :: behind ∧ (property e).outcome a = .error f ∧
    f.isRecognized = false ∧
    ∀ d ∈ before, ∀ f', (property d).outcome a = .error f' → f'.isRecognized = true

/-- In front of the first refusal are answers only. -/
theorem FirstRefusal.exists_branches {candidates before : List Handle} {f : Fault}
    (h : FirstRefusal a property candidates before f) (value : Term) (b : Branch) (x : Var) :
    ∃ bs : List Branch,
      before.flatMap (candidateItems a property x value b) = bs.map Except.ok := by
  obtain ⟨_, _, rfl, _, _, hBefore⟩ := h
  induction before with
  | nil => exact ⟨[], rfl⟩
  | cons d before ih =>
      obtain ⟨hHead, hBefore⟩ := List.forall_mem_cons.mp hBefore
      obtain ⟨bs, hd⟩ := itemsOf_eq_answers hHead value (bindTo x d b)
      obtain ⟨more, hMore⟩ := ih hBefore
      exact ⟨bs ++ more, by rw [List.flatMap_cons, candidateItems, hd, hMore, List.map_append]⟩

/-- Branches in front are branches before the first failure. -/
theorem exists_append_of_failure {front bs : List Branch} {items rest : List Item} {error : Error}
    (h : front.map Except.ok ++ items = bs.map Except.ok ++ .error error :: rest) :
    ∃ more, bs = front ++ more ∧ items = more.map Except.ok ++ .error error :: rest := by
  induction front generalizing bs with
  | nil => exact ⟨bs, rfl, h⟩
  | cons r front ih =>
      cases bs with
      | nil => cases (List.cons.inj h).1
      | cons r' bs =>
          obtain ⟨hHead, hTail⟩ := List.cons.inj h
          obtain rfl := Except.ok.inj hHead
          obtain ⟨more, rfl, hItems⟩ := ih hTail
          exact ⟨more, rfl, hItems⟩

/-- Branches and then a failure are the items of candidates exactly if the failure is the first
refusal, and the branches come from the candidates before it. -/
theorem candidates_eq_failure_iff {candidates : List Handle} {bs : List Branch} {error : Error} :
    (∃ rest, candidates.flatMap (candidateItems a property x value b) =
        bs.map Except.ok ++ .error error :: rest) ↔
      ∃ before f, FirstRefusal a property candidates before f ∧
        before.flatMap (candidateItems a property x value b) = bs.map Except.ok ∧
        error = .oracle f := by
  constructor
  · rintro ⟨rest, hItems⟩
    induction candidates generalizing bs with
    | nil => simp at hItems
    | cons e candidates ih =>
        by_cases hRefused : ∃ f, (property e).outcome a = .error f ∧ f.isRecognized = false
        · obtain ⟨f, hOutcome, hNot⟩ := hRefused
          have hHead : candidateItems a property x value b e = [.error (.oracle f)] := by
            simp [candidateItems, hOutcome, itemsOf, hNot]
          rw [List.flatMap_cons, hHead] at hItems
          cases bs with
          | cons r bs => simp at hItems
          | nil =>
              refine ⟨[], f, ⟨e, candidates, rfl, hOutcome, hNot, by simp⟩, rfl, ?_⟩
              simpa using (List.cons.inj hItems).1.symm
        · have hRecognized (f : Fault) (hf : (property e).outcome a = .error f) :
              f.isRecognized = true := by
            by_contra hNot
            exact hRefused ⟨f, hf, by simpa using hNot⟩
          obtain ⟨front, hFront⟩ := itemsOf_eq_answers hRecognized value (bindTo x e b)
          rw [List.flatMap_cons, candidateItems, hFront] at hItems
          obtain ⟨more, rfl, hRest⟩ := exists_append_of_failure hItems
          obtain ⟨before, f, ⟨d, behind, rfl, hOutcome, hNot, hFirst⟩, hBefore, rfl⟩ := ih hRest
          refine ⟨e :: before, f, ⟨d, behind, rfl, hOutcome, hNot, ?_⟩, ?_, rfl⟩
          · exact List.forall_mem_cons.mpr ⟨hRecognized, hFirst⟩
          · rw [List.flatMap_cons, hBefore, candidateItems, hFront, List.map_append]
  · rintro ⟨before, f, ⟨e, behind, rfl, hOutcome, hNot, _⟩, hBefore, rfl⟩
    have hHead : candidateItems a property x value b e = [.error (.oracle f)] := by
      simp [candidateItems, hOutcome, itemsOf, hNot]
    refine ⟨behind.flatMap (candidateItems a property x value b), ?_⟩
    rw [List.flatMap_append, List.flatMap_cons, hBefore, hHead]
    rfl

/-- A run over the items of candidates fails exactly if the first refusal comes before the answers
are as many as wanted. -/
theorem run_eq_error_iff_firstRefusal {candidates : List Handle} {supply : Nat}
    {goal : Term → Goal} {w : World σ}
    (h : (goal (.var ⟨supply⟩) c (.start (supply + 1))).Delivers o (o.Steady a)
      (candidates.flatMap (candidateItems a property x value (.start (supply + 1)))))
    (hSteady : o.Steady a w.state) (limit : Option Nat) (error : Error) :
    (Goal.run o c limit supply goal w).1 = .error error ↔
      ∃ before f, FirstRefusal a property candidates before f ∧
        (∀ n ∈ limit,
          (before.flatMap (candidateItems a property x value (.start (supply + 1)))).length < n) ∧
        error = .oracle f := by
  rw [Goal.run_eq_error_iff h hSteady]
  constructor
  · rintro ⟨bs, rest, hItems, hLimit⟩
    obtain ⟨before, f, hFirst, hBefore, hError⟩ := candidates_eq_failure_iff.mp ⟨rest, hItems⟩
    exact ⟨before, f, hFirst, by rwa [hBefore, List.length_map], hError⟩
  · rintro ⟨before, f, hFirst, hLimit, hError⟩
    obtain ⟨bs, hBefore⟩ := hFirst.exists_branches value (.start (supply + 1)) x
    obtain ⟨rest, hItems⟩ := candidates_eq_failure_iff.mpr ⟨before, f, hFirst, hBefore, hError⟩
    exact ⟨bs, rest, hItems, by rwa [hBefore, List.length_map] at hLimit⟩

/-- Refusing the property of some elements with recognized faults takes away their items only. -/
theorem candidates_refused {a' : Answers} {F : Handle → Bool}
    (hRefused : ∀ e, F e = true → ∃ f, (property e).outcome a' = .error f ∧ f.isRecognized = true)
    (hSame : ∀ e, F e = false → (property e).outcome a' = (property e).outcome a)
    (candidates : List Handle) :
    candidates.flatMap (candidateItems a' property x value b) =
      (candidates.filter fun e => !F e).flatMap (candidateItems a property x value b) := by
  induction candidates with
  | nil => rfl
  | cons e candidates ih =>
      rw [List.flatMap_cons, ih]
      cases hF : F e with
      | true =>
          obtain ⟨f, hOutcome, hRecognized⟩ := hRefused e hF
          rw [List.filter_cons_of_neg (by simp [hF]), candidateItems, hOutcome,
            itemsOf_recognized hRecognized, List.nil_append]
      | false =>
          rw [List.filter_cons_of_pos (by simp [hF]), List.flatMap_cons, candidateItems, hSame e hF,
            candidateItems]

/-- With the element unknown, a relation shows a failed enumeration as its only item. Otherwise it
shows the items of the candidates in order; with the property of some elements refused by recognized
faults, it shows the same items without those of these elements; and a run fails exactly if the first
refusal of another kind comes before the answers are as many as wanted, and with that fault. -/
theorem Reads.faults_are_local {w : World σ} (hReads : Reads b property element value g)
    (hUnknown : b.substitution.walk element = .var x) (hSteady : o.Steady a w.state) :
    (∀ f, a (.elements c.scope.root) = .error f →
      ∀ n, (g c b).pulls o n w = [Except.error (.oracle f)].take n) ∧
    ∀ candidates, a (.elements c.scope.root) = .ok candidates →
      (∀ n, (g c b).pulls o n w =
        (candidates.flatMap (candidateItems a property x value b)).take n) ∧
      (∀ (F : Handle → Bool) (a' : Answers) (o' : Oracle σ) (w' : World σ), o'.Steady a' w'.state →
        a' (.elements c.scope.root) = .ok candidates →
        (∀ e, F e = true → ∃ f, (property e).outcome a' = .error f ∧ f.isRecognized = true) →
        (∀ e, F e = false → (property e).outcome a' = (property e).outcome a) →
        ∀ n, (g c b).pulls o' n w' =
          ((candidates.filter fun e => !F e).flatMap
            (candidateItems a property x value b)).take n) ∧
      ∀ (supply : Nat) (goal : Term → Goal), b = .start (supply + 1) →
        goal (.var ⟨supply⟩) = g → ∀ limit error,
          (Goal.run o c limit supply goal w).1 = .error error ↔
            ∃ before f, FirstRefusal a property candidates before f ∧
              (∀ n ∈ limit,
                (before.flatMap (candidateItems a property x value b)).length < n) ∧
              error = .oracle f := by
  rw [hReads.eq_ofProperty c]
  refine ⟨fun f hFault n => ?_, fun candidates hCandidates => ⟨fun n => ?_, ?_, ?_⟩⟩
  · exact (delivers_failed_enumeration hUnknown hFault).pulls_eq hSteady n
  · exact (delivers_candidates hUnknown hCandidates).pulls_eq hSteady n
  · intro F a' o' w' hSteady' hCandidates' hRefused hSame n
    rw [← candidates_refused hRefused hSame]
    exact (delivers_candidates hUnknown hCandidates').pulls_eq hSteady' n
  · rintro supply goal rfl rfl limit error
    refine run_eq_error_iff_firstRefusal ?_ hSteady limit error
    rw [hReads.eq_ofProperty c]
    exact delivers_candidates hUnknown hCandidates

/-- Answers about three elements: the text of the first can be read, that of the second is refused
with a recognized fault, and anything else with another. -/
def threeTexts : Answers
  | .elements _ => .ok [⟨"1"⟩, ⟨"2"⟩, ⟨"3"⟩]
  | .text ⟨"1"⟩ => .ok "found"
  | .text ⟨"2"⟩ => .error ⟨.unknownServer, "busy"⟩
  | _ => .error ⟨.unexpected, "lost"⟩

/-- The third element ends the search for texts, unless one answer is enough. -/
theorem threeTexts_faults_are_local :
    (Branch.start 1).substitution.walk (.var ⟨0⟩) = .var ⟨0⟩ ∧
      (⟨fun q s => (threeTexts q, s)⟩ : Oracle Unit).Steady threeTexts () ∧
      ∀ limit : Option Nat, (∀ n ∈ limit, 1 < n) →
        (Goal.run (⟨fun q s => (threeTexts q, s)⟩ : Oracle Unit) ⟨.everything⟩ limit 0
          (fun q => text q (.str "found")) (.of ())).1 =
            .error (.oracle ⟨.unexpected, "lost"⟩) := by
  have hUnknown : (Branch.start 1).substitution.walk (.var ⟨0⟩) = .var ⟨0⟩ :=
    Substitution.walk_of_unbound rfl
  have hSteady : (⟨fun q s => (threeTexts q, s)⟩ : Oracle Unit).Steady threeTexts () :=
    fun _ _ => rfl
  refine ⟨hUnknown, hSteady, fun limit hLimit => ?_⟩
  have hLocal := Reads.faults_are_local (c := ⟨.everything⟩) (w := .of ())
    (.ofProperty (always .text fun _ (content : String) => .str content) (.var ⟨0⟩) (.str "found"))
    hUnknown hSteady
  refine ((hLocal.2 _ rfl).2.2 0 (fun q => text q (.str "found")) rfl rfl limit _).mpr
    ⟨[⟨"1"⟩, ⟨"2"⟩], ⟨.unexpected, "lost"⟩, ⟨⟨"3"⟩, [], rfl, rfl, rfl, ?_⟩, ?_, rfl⟩
  · intro d hd f' hf'
    rcases List.mem_pair.mp hd with rfl | rfl
    · cases hf'
    · obtain rfl := Except.error.inj hf'
      rfl
  · intro n hn
    refine Nat.lt_of_le_of_lt ?_ (hLimit n hn)
    show (((bindTo ⟨0⟩ ⟨"1"⟩ (.start 1)).unify (.str "found") (.str "found")).toList.map Except.ok ++
      ([] ++ [])).length ≤ 1
    rw [List.append_nil, List.append_nil, List.length_map]
    exact Option.length_toList_le

end Relation

end PageLogic
