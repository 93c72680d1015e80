import PageLogic.Proofs.Page.Enumeration
import PageLogic.Proofs.Relation.Facts
/-!
The facts of a page in memory. With the root scope that admits everything, and without unrecognized
faults, every relation of such a page is the table of its facts.
-/
namespace PageLogic

/-- The relations of two arguments that have a table: all but properties that are read in other ways
than from one attribute. -/
def Binary.Fixed : Binary → Prop
  | .property p => ∃ reader : AttributeReader, p = reader.property
  | _ => True

/-- The relations of a page, between terms that name no elements but those that it issued. -/
def Fragment.onPage (p : Page) : Fragment where
  unary _ := True
  binary := Binary.Fixed
  constant := NamesOnly p.Issued

namespace Page

open PageLogic.Relation

variable {p : Page} {c : Context}

/-- The property is made of what the page finds out about the element, and is data. -/
def Shows (p : Page) (property : Property) : Prop :=
  ∃ f : Nat × Html.Position → Option Term, (∀ found t, f found = some t → t.IsData) ∧
    ∀ e, (property e).outcome p.answer = (p.inspect e).map f

/-- A property that is shown is one of the elements of the whole page. -/
theorem Shows.tabular {property : Property} (h : p.Shows property)
    (hExpected : p.ElementsExpected) :
    Tabular p.answer p.Issued (p.matching everyElement) property := by
  obtain ⟨f, hData, hOutcome⟩ := h
  refine ⟨fun e fault he => ?_, fun e t he => ?_, fun e t hIssued he => ?_⟩
  · rw [hOutcome, Reading.map_eq_error_iff] at he
    exact inspect_eq_error hExpected he
  · rw [hOutcome, Reading.map_eq_ok_iff] at he
    obtain ⟨found, _, hFound⟩ := he
    exact hData found t hFound
  · rw [hOutcome, Reading.map_eq_ok_iff] at he
    obtain ⟨found, hInspect, _⟩ := he
    exact mem_matching_of_inspect hIssued hInspect

theorem isData_str (s : String) : (Term.str s).IsData := by
  simp [Term.IsData, Term.Names, Term.vars]

theorem isData_bool (yes : Bool) : (Term.bool yes).IsData := by
  simp [Term.IsData, Term.Names, Term.vars, Term.leaves]

/-- Records of two numbers, such as sizes and locations. -/
theorem isData_pair (k l : String) (i j : Int) :
    (Term.record [(k, .int i), (l, .int j)]).IsData := by
  constructor
  · rw [Term.vars_record]
    rfl
  · intro e he
    rw [Term.Names, Term.leaves_record] at he
    simp [Term.leaves] at he

/-- A property that is made of one answer about the element is shown. -/
theorem shows_of_about {α : Type} {property : Property} (answer : Nat → Html.Position → α)
    (value : α → Option Term) (hData : ∀ x t, value x = some t → t.IsData)
    (hOutcome : ∀ e, (property e).outcome p.answer = (p.aboutElement e answer).map value) :
    p.Shows property := by
  refine ⟨fun found => value (answer found.1 found.2), fun _ t => hData _ t, fun e => ?_⟩
  rw [hOutcome, aboutElement]
  cases p.inspect e <;> rfl

/-- As `shows_of_about`, for a property that every element has. -/
theorem shows_of_always {α : Type} {property : Property} (answer : Nat → Html.Position → α)
    (value : α → Term) (hData : ∀ x, (value x).IsData)
    (hOutcome : ∀ e, (property e).outcome p.answer =
      (p.aboutElement e answer).map fun x => some (value x)) : p.Shows property :=
  shows_of_about answer _ (fun x _ ht => Option.some.inj ht ▸ hData x) hOutcome

theorem shows_property? {r : Binary} (hr : r.Fixed) {property : Property}
    (h : r.property? = some property) : p.Shows property := by
  cases r with
  | tag =>
      cases h
      exact shows_of_always (fun _ position => Text.lowercaseAscii position.element.name)
        (fun name => .str (Text.lowercase name)) (fun _ => isData_str _)
        fun e => Reading.outcome_of p.answer (.tagName e) _
  | text =>
      cases h
      exact shows_of_always (fun _ position => textOf position) .str isData_str
        fun e => Reading.outcome_of p.answer (.text e) _
  | size =>
      cases h
      exact shows_of_always (fun index _ => (p.boxes.lookup index).elim (⟨0, 0⟩ : Size) (·.size))
        .ofSize (fun _ => isData_pair _ _ _ _) fun e => Reading.outcome_of p.answer (.size e) _
  | location =>
      cases h
      exact shows_of_always
        (fun index _ => (p.boxes.lookup index).elim (⟨0, 0⟩ : Location) (·.location)) .ofLocation
        (fun _ => isData_pair _ _ _ _) fun e => Reading.outcome_of p.answer (.location e) _
  | childOf => cases h
  | attributeOf name =>
      cases h
      refine shows_of_about
        (fun _ position => position.element.attribute? (Text.lowercaseAscii name))
        (fun value => value.map .str) (fun value t ht => ?_)
        fun e => Reading.outcome_of p.answer (.attribute e name) _
      obtain ⟨s, _, rfl⟩ := Option.map_eq_some_iff.mp ht
      exact isData_str s
  | property =>
      cases h
      obtain ⟨reader, rfl⟩ := hr
      exact shows_of_about
        (fun _ position => position.element.attribute? (Text.lowercaseAscii reader.name))
        reader.read reader.data fun e => Reading.outcome_of p.answer (.attribute e reader.name) _

/-- To be present is to be displayed, for an element that exists. -/
theorem outcome_present (e : Handle) :
    (Reading.present e).outcome p.answer =
      p.aboutElement e fun _ position => position.isRendered := by
  have hDisplayed : (Reading.of (.displayed e) id).outcome p.answer =
      p.aboutElement e fun _ position => position.isRendered :=
    Reading.outcome_of_id p.answer (.displayed e)
  rw [Reading.present, Reading.outcome_andThen, Reading.outcome_of_id]
  show ((p.aboutElement e fun _ _ => true).bind _) = _
  unfold aboutElement at hDisplayed ⊢
  cases hInspect : p.inspect e with
  | error f => rfl
  | ok found =>
      rw [hInspect] at hDisplayed
      exact hDisplayed

theorem shows_reading? {r : Unary} {read : Handle → Reading Bool} (h : r.reading? = some read) :
    p.Shows (holdingProperty read) := by
  have hShows (answer : Nat → Html.Position → Bool)
      (hOutcome : ∀ e, (read e).outcome p.answer = p.aboutElement e answer) :
      p.Shows (holdingProperty read) := by
    refine shows_of_always answer .bool isData_bool fun e => ?_
    rw [holdingProperty, Reading.outcome_map, hOutcome]
  cases r with
  | displayed =>
      cases h
      exact hShows (fun _ position => position.isRendered)
        fun e => Reading.outcome_of_id p.answer (.displayed e)
  | enabled =>
      cases h
      exact hShows (fun _ position => !position.element.hasAttribute "disabled")
        fun e => Reading.outcome_of_id p.answer (.enabled e)
  | attached =>
      cases h
      exact hShows (fun _ _ => true) fun e => Reading.outcome_of_id p.answer (.exists e)
  | present =>
      cases h
      exact hShows _ outcome_present
  | selected =>
      cases h
      exact hShows (fun _ position => position.element.hasAttribute "selected" ||
        position.element.hasAttribute "checked")
        fun e => Reading.outcome_of_id p.answer (.selected e)
  | visible =>
      cases h
      exact hShows (fun _ position => position.isShown)
        fun e => Reading.outcome_of_id p.answer (.visible e)
  | _ => cases h

/-- What is beneath an element comes from the element that its handle names. -/
theorem answer_descendants_eq_ok {parent : Handle} {scope : String} {es : List Handle}
    (h : p.answer (.descendants parent scope) = .ok es) :
    ∃ found s, p.inspect parent = .ok found ∧ es = p.matchingBelow found.1 found.2 s := by
  simp only [answer] at h
  cases hInspect : p.inspect parent with
  | error f => rw [hInspect] at h; cases h
  | ok found =>
      rw [hInspect] at h
      cases hSelector : selector scope with
      | error f => rw [hSelector] at h; cases h
      | ok s =>
          rw [hSelector] at h
          exact ⟨found, s, rfl, (Except.ok.inj h).symm⟩

theorem answer_descendants_eq_error (hExpected : p.ElementsExpected) {parent : Handle}
    {scope : String} {f : Fault} (h : p.answer (.descendants parent scope) = .error f) :
    f.isRecognized = true := by
  simp only [answer] at h
  cases hInspect : p.inspect parent with
  | error f' =>
      rw [hInspect] at h
      exact Except.error.inj h ▸ inspect_eq_error hExpected hInspect
  | ok found =>
      rw [hInspect] at h
      unfold selector at h
      cases hParse : Css.Selector.parse? scope with
      | none =>
          rw [hParse] at h
          obtain rfl := Except.error.inj h
          rfl
      | some s => rw [hParse] at h; cases h

/-- The answers of a page are coherent under the root scope that admits everything. -/
theorem coherent (hRoot : c.scope.root = "*") (hExpected : p.ElementsExpected) :
    Answers.Coherent p.answer c p.Issued (p.matching everyElement) where
  elements := by rw [hRoot, answer_elements_star]
  nodup := p.nodup_matching everyElement
  issued _ he := issued_of_mem_matching he
  below_recognized _ _ h := answer_descendants_eq_error hExpected h
  below_nodup parent es h := by
    obtain ⟨found, s, _, rfl⟩ := answer_descendants_eq_ok h
    exact p.nodup_matchingBelow found.1 found.2 s
  below_issued parent es h e he := by
    obtain ⟨found, s, _, rfl⟩ := answer_descendants_eq_ok h
    exact issued_of_mem_matchingBelow he
  below_listed parent es hIssued h := by
    obtain ⟨found, _, hInspect, _⟩ := answer_descendants_eq_ok h
    exact mem_matching_of_inspect hIssued hInspect

/-- The facts of a page. -/
def facts (p : Page) (c : Context) : Facts :=
  .of p.answer c (p.matching everyElement)

theorem aboutPage_eq_error (hPage : p.pageFault ≠ some .unexpected) {what value : String}
    {f : Fault} (h : p.aboutPage what value = .error f) : f.isRecognized = true := by
  unfold aboutPage at h
  cases hFault : p.pageFault with
  | none => rw [hFault] at h; cases h
  | some kind =>
      rw [hFault] at h
      obtain rfl := Except.error.inj h
      cases kind with
      | unexpected => exact absurd hFault hPage
      | _ => rfl

/-- Every relation of a page is the table of its facts. -/
theorem facts_hold (hRoot : c.scope.root = "*") (hExpected : p.ElementsExpected)
    {L : Fragment} (hConstant : L.constant = NamesOnly p.Issued)
    (hBinary : ∀ r, L.binary r → r.Fixed)
    (hPage : (∃ r, L.unary r) → p.pageFault ≠ some .unexpected) :
    (p.facts c).Hold oracle (oracle.Steady p.answer) c L :=
  Facts.hold_of_coherent (coherent hRoot hExpected) hConstant
    (fun _ _ _ h => (shows_reading? h).tabular hExpected)
    (fun hTitle _ h => aboutPage_eq_error (hPage ⟨_, hTitle⟩) h)
    (fun hUrl _ h => aboutPage_eq_error (hPage ⟨_, hUrl⟩) h)
    (fun r hr _ h => (shows_property? (hBinary r hr) h).tabular hExpected)

end Page

end PageLogic
