import PageLogic.Proofs.Check.Verdict
import PageLogic.Proofs.Relation.Facts
/-!
Presence. The reading behind it asks whether an element exists and, if so, whether it is displayed,
within one relation; the conjunction of the two relations asks in the same order, but absorbs the
faults of each by itself. Both deliver the same items, failures included, whatever is known of the
element.
-/
namespace PageLogic.Relation

variable {σ : Type} {o : Oracle σ} {a : Answers} {c : Context} {b : Branch} {element : Term}
  {x : Var} {w : World σ}

/-! ### Yes-or-no relations -/

/-- What a branch makes of the answer to a yes-or-no question. -/
def heldItems (b : Branch) : Except Fault Bool → List Item
  | .ok yes => if yes then [.ok b] else []
  | .error f => if f.isRecognized then [] else [.error (.oracle f)]

theorem itemsOf_bool (b : Branch) (r : Except Fault Bool) :
    itemsOf (.bool true) b (r.map fun yes => some (.bool yes)) = heldItems b r := by
  cases r with
  | error f => rfl
  | ok yes =>
      simp only [Except.map, itemsOf, unify_bool, heldItems]
      cases yes <;> rfl

variable {read : Handle → Reading Bool}

theorem itemsOf_holding (read : Handle → Reading Bool) (b : Branch) (e : Handle) :
    itemsOf (.bool true) b ((holdingProperty read e).outcome a) =
      heldItems b ((read e).outcome a) := by
  rw [holdingProperty, Reading.outcome_map, itemsOf_bool]

/-- With the element known, the answer about it decides. -/
theorem delivers_holding_known {e : Handle} {answer : Except Fault Bool}
    (hRead : (read e).outcome a = answer) (h : b.substitution.walk element = .element e) :
    (holding read element c b).Delivers o (o.Steady a) (heldItems b answer) := by
  have hItems : (holding read element c b).Delivers o (o.Steady a)
      (itemsOf (.bool true) b ((holdingProperty read e).outcome a)) :=
    delivers_ofProperty_known h
  rw [itemsOf_holding, hRead] at hItems
  exact hItems

/-- With the element unknown, the answers about the candidates decide. -/
theorem delivers_holding_unknown {answer : Handle → Except Fault Bool}
    (hRead : ∀ e, (read e).outcome a = answer e) (h : b.substitution.walk element = .var x)
    {candidates : List Handle} (hCandidates : a (.elements c.scope.root) = .ok candidates) :
    (holding read element c b).Delivers o (o.Steady a)
      (candidates.flatMap fun e => heldItems (bindTo x e b) (answer e)) := by
  have hItems : (holding read element c b).Delivers o (o.Steady a)
      (candidates.flatMap (candidateItems a (holdingProperty read) x (.bool true) b)) :=
    delivers_candidates h hCandidates
  have hCandidate : candidateItems a (holdingProperty read) x (.bool true) b =
      fun e => heldItems (bindTo x e b) (answer e) := by
    funext e
    rw [candidateItems, itemsOf_holding, hRead]
  rw [hCandidate] at hItems
  exact hItems

/-! ### The two ways to ask -/

/-- Display is asked about only if the element exists. -/
theorem outcome_present (e : Handle) :
    (Reading.present e).outcome a =
      (a (.exists e)).bind fun there => if there then a (.displayed e) else .ok false := by
  rw [Reading.present, Reading.outcome_andThen, Reading.outcome_of_id]
  cases a (.exists e) with
  | error f => rfl
  | ok there =>
      cases there with
      | false => rfl
      | true => exact Reading.outcome_of_id a (.displayed e)

/-- What a branch makes of the question whether the element that it knows is displayed. -/
def displayedItems (a : Answers) (element : Term) (r : Branch) : List Item :=
  match r.substitution.walk element with
  | .element e => heldItems r (a (.displayed e))
  | _ => []

theorem delivers_displayed {r : Branch} {e : Handle}
    (h : r.substitution.walk element = .element e) :
    (displayed element c r).Delivers o (o.Steady a) (displayedItems a element r) := by
  rw [displayedItems, h]
  exact delivers_holding_known (Reading.outcome_of_id a (.displayed e)) h

/-- Asking one question after the other, with the faults of each absorbed, comes to the same as the
reading that asks both. -/
theorem heldItems_present {r : Branch} {e : Handle}
    (h : r.substitution.walk element = .element e) :
    heldItems r ((Reading.present e).outcome a) =
      (heldItems r (a (.exists e))).flatMap (Search.continued (displayedItems a element)) := by
  rw [outcome_present]
  cases a (.exists e) with
  | error f =>
      simp only [Except.bind, heldItems]
      cases f.isRecognized <;> rfl
  | ok there =>
      cases there with
      | false => rfl
      | true =>
          have hDisplayed : displayedItems a element r = heldItems r (a (.displayed e)) := by
            rw [displayedItems, h]
          simp [Except.bind, heldItems, Search.continued, hDisplayed]

/-- A branch that comes of a yes-or-no question is the one that asked. -/
theorem eq_of_mem_heldItems {b r : Branch} {answer : Except Fault Bool}
    (h : .ok r ∈ heldItems b answer) : r = b := by
  unfold heldItems at h
  split at h <;> split at h <;> simp_all

/-- The two ways to ask deliver the same items. -/
theorem delivers_present_and_conj (o : Oracle σ) (a : Answers) (c : Context) (element : Term)
    (b : Branch) :
    ∃ items, (present element c b).Delivers o (o.Steady a) items ∧
      ((attached element).conj (displayed element) c b).Delivers o (o.Steady a) items := by
  cases hWalk : b.substitution.walk element with
  | var x =>
      cases hCandidates : a (.elements c.scope.root) with
      | error f =>
          refine ⟨[.error (.oracle f)], delivers_failed_enumeration hWalk hCandidates, ?_⟩
          have hAttached : (attached element c b).Delivers o (o.Steady a) [.error (.oracle f)] :=
            delivers_failed_enumeration hWalk hCandidates
          exact hAttached.bind_items (g := fun _ => []) (by simp)
      | ok candidates =>
          refine ⟨_, delivers_holding_unknown (fun _ => rfl) hWalk hCandidates, ?_⟩
          have hAttached : (attached element c b).Delivers o (o.Steady a)
              (candidates.flatMap fun e => heldItems (bindTo x e b) (a (.exists e))) :=
            delivers_holding_unknown (fun e => Reading.outcome_of_id a (.exists e)) hWalk
              hCandidates
          have hBoth := hAttached.bind_items (f := displayed element c)
            (g := displayedItems a element) fun r hr => ?_
          · have hCandidate : (fun e => heldItems (bindTo x e b) ((Reading.present e).outcome a)) =
                fun e => (heldItems (bindTo x e b) (a (.exists e))).flatMap
                  (Search.continued (displayedItems a element)) :=
              funext fun e => heldItems_present (walk_bindTo hWalk e)
            rw [hCandidate, ← List.flatMap_assoc]
            exact hBoth
          · obtain ⟨e, _, hr⟩ := List.mem_flatMap.mp hr
            rw [eq_of_mem_heldItems hr]
            exact delivers_displayed (walk_bindTo hWalk e)
  | element e =>
      refine ⟨_, delivers_holding_known rfl hWalk, ?_⟩
      have hAttached : (attached element c b).Delivers o (o.Steady a)
          (heldItems b (a (.exists e))) :=
        delivers_holding_known (Reading.outcome_of_id a (.exists e)) hWalk
      rw [heldItems_present hWalk]
      refine hAttached.bind_items fun r hr => ?_
      rw [eq_of_mem_heldItems hr]
      exact delivers_displayed hWalk
  | _ =>
      have hOther : (b.substitution.walk element).mayBeElement = false := by
        rw [hWalk]
        rfl
      refine ⟨[], delivers_ofProperty_other hOther, ?_⟩
      have hAttached : (attached element c b).Delivers o (o.Steady a) [] :=
        delivers_ofProperty_other hOther
      exact hAttached.bind_items (g := fun _ => []) (by simp)

/-- An element is present exactly if it is attached and displayed. Both searches show the same items
on every branch; checking one finds what checking the other finds, at any time, and the check of
their agreement says yes unless both fail. -/
theorem present_eq_attached_conj_displayed (hSteady : o.Steady a w.state) :
    (∀ (element : Term) (b : Branch) (n : Nat),
      (present element c b).pulls o n w =
        ((attached element).conj (displayed element) c b).pulls o n w) ∧
    ∀ e : Handle, ∃ found : Except Error Bool,
      (∀ w' : World σ, o.Steady a w'.state →
        (Check.holds o c 0 (present (.element e)) w').1 = found ∧
        (Check.holds o c 0 ((attached (.element e)).conj (displayed (.element e))) w').1 =
          found) ∧
      (Check.presentAgrees o c e w).1 = found.map fun _ => true := by
  refine ⟨fun element b n => ?_, fun e => ?_⟩
  · obtain ⟨items, hPresent, hBoth⟩ := delivers_present_and_conj o a c element b
    rw [hPresent.pulls_eq hSteady, hBoth.pulls_eq hSteady]
  · obtain ⟨items, hPresent, hBoth⟩ := delivers_present_and_conj o a c (.element e) (.start 0)
    refine ⟨Check.verdict items, fun w' hw' => ?_, ?_⟩
    · obtain ⟨_, hLeft, _⟩ := Check.holds_eq hPresent hw'
      obtain ⟨_, hRight, _⟩ := Check.holds_eq hBoth hw'
      exact ⟨congrArg Prod.fst hLeft, congrArg Prod.fst hRight⟩
    · obtain ⟨w₁, hLeft, hw₁⟩ := Check.holds_eq hPresent hSteady
      obtain ⟨w₂, hRight, _⟩ := Check.holds_eq hBoth hw₁
      rw [Check.presentAgrees, hLeft]
      cases hFound : Check.verdict items with
      | error error => rfl
      | ok yes =>
          simp only [hRight, hFound]
          simp [Except.map]

/-- Answers about three elements: the first is displayed, the second is not, and whether the third
exists cannot be said. -/
def threeDisplays : Answers
  | .elements _ => .ok [⟨"1"⟩, ⟨"2"⟩, ⟨"3"⟩]
  | .exists ⟨"1"⟩ | .exists ⟨"2"⟩ | .displayed ⟨"1"⟩ => .ok true
  | .displayed ⟨"2"⟩ => .ok false
  | _ => .error ⟨.unexpected, "lost"⟩

/-- Asking which elements exist and are displayed finds the first and fails at the third, however it
is put. The two ways of asking agree on the second, of which neither holds; about the third both
fail. -/
theorem threeDisplays_present_eq :
    (⟨fun q s => (threeDisplays q, s)⟩ : Oracle Unit).Steady threeDisplays () ∧
      (∀ n, ((attached (.var ⟨0⟩)).conj (displayed (.var ⟨0⟩)) ⟨.everything⟩ (.start 1)).pulls
          (⟨fun q s => (threeDisplays q, s)⟩ : Oracle Unit) n (.of ()) =
        [.ok (bindTo ⟨0⟩ ⟨"1"⟩ (.start 1)), .error (.oracle ⟨.unexpected, "lost"⟩)].take n) ∧
      (Check.presentAgrees (⟨fun q s => (threeDisplays q, s)⟩ : Oracle Unit) ⟨.everything⟩ ⟨"2"⟩
        (.of ())).1 = .ok true ∧
      (Check.presentAgrees (⟨fun q s => (threeDisplays q, s)⟩ : Oracle Unit) ⟨.everything⟩ ⟨"3"⟩
        (.of ())).1 = .error (.oracle ⟨.unexpected, "lost"⟩) := by
  have hUnknown : (Branch.start 1).substitution.walk (.var ⟨0⟩) = .var ⟨0⟩ :=
    Substitution.walk_of_unbound rfl
  have hSteady : (⟨fun q s => (threeDisplays q, s)⟩ : Oracle Unit).Steady threeDisplays () :=
    fun _ _ => rfl
  obtain ⟨hSame, hAgrees⟩ :=
    present_eq_attached_conj_displayed (c := ⟨.everything⟩) (w := .of ()) hSteady
  have hVerdict (e : Handle) :
      (Check.presentAgrees (⟨fun q s => (threeDisplays q, s)⟩ : Oracle Unit) ⟨.everything⟩ e
        (.of ())).1 =
          (Check.verdict (heldItems (.start 0) ((Reading.present e).outcome threeDisplays))).map
            fun _ => true := by
    obtain ⟨found, hFound, hAgree⟩ := hAgrees e
    have hKnown : (present (.element e) ⟨.everything⟩ (.start 0)).Delivers
        (⟨fun q s => (threeDisplays q, s)⟩ : Oracle Unit) (Oracle.Steady _ threeDisplays)
        (heldItems (.start 0) ((Reading.present e).outcome threeDisplays)) :=
      delivers_holding_known rfl (Substitution.walk_of_not_isVar rfl)
    obtain ⟨w', hHolds, _⟩ := Check.holds_eq hKnown (w := .of ()) hSteady
    rw [hAgree, ← (hFound (.of ()) hSteady).1]
    exact congrArg (Except.map fun _ => true) (congrArg Prod.fst hHolds)
  refine ⟨hSteady, fun n => ?_, hVerdict ⟨"2"⟩, hVerdict ⟨"3"⟩⟩
  rw [← hSame]
  exact (delivers_holding_unknown (fun _ => rfl) hUnknown rfl).pulls_eq hSteady n

end PageLogic.Relation
