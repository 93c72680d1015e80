import PageLogic.Proofs.Relation.Table
/-!
The facts that answers about a page give rise to, and that every relation is the table of its facts.
-/
namespace PageLogic

namespace Reading

variable {α β : Type} (a : Answers)

theorem map_eq_error_iff {r : Except Fault α} {f : α → β} {e : Fault} :
    r.map f = .error e ↔ r = .error e := by
  cases r <;> simp [Except.map]

theorem map_eq_ok_iff {r : Except Fault α} {f : α → β} {y : β} :
    r.map f = .ok y ↔ ∃ x, r = .ok x ∧ f x = y := by
  cases r <;> simp [Except.map]

theorem outcome_of (q : Question) (f : q.Value → α) : (Reading.of q f).outcome a = (a q).map f := by
  simp only [Reading.of, outcome]
  cases a q <;> rfl

theorem outcome_of_id (q : Question) : (Reading.of q id).outcome a = a q := by
  rw [outcome_of, Except.map_id]
  rfl

theorem outcome_andThen (r : Reading α) (f : α → Reading β) :
    (r.andThen f).outcome a = (r.outcome a).bind fun x => (f x).outcome a := by
  induction r with
  | value x => rfl
  | fault e => rfl
  | ask q next ih => exact ih (a q)

theorem outcome_map (f : α → β) (r : Reading α) :
    (r.map f).outcome a = (r.outcome a).map f := by
  rw [Reading.map, outcome_andThen]
  cases r.outcome a <;> rfl

end Reading

/-- A property that is made of one attribute, and is data. -/
structure AttributeReader where
  name : String
  read : Option String → Option Term
  data : ∀ value t, read value = some t → t.IsData

/-- Reads the attribute of an element. -/
def AttributeReader.property (r : AttributeReader) : Relation.Property := fun e =>
  .of (.attribute e r.name) r.read

namespace Relation

/-- A yes-or-no property as a property with a value. -/
def holdingProperty (read : Handle → Reading Bool) : Property := fun e =>
  (read e).map fun yes => some (.bool yes)

/-- The candidates that have a property, and its values. -/
def rows (a : Answers) (candidates : List Handle) (property : Property) : List (Term × Term) :=
  candidates.flatMap fun e => (values a property e).map fun t => (.element e, t)

/-- The candidates of which a reading says yes. -/
def holders (a : Answers) (candidates : List Handle) (read : Handle → Reading Bool) : List Term :=
  ((rows a candidates (holdingProperty read)).filter fun row => row.2 = .bool true).map Prod.fst

/-- The candidates and what lies beneath them, what lies beneath first. -/
def childRows (a : Answers) (c : Context) (candidates : List Handle) : List (Term × Term) :=
  candidates.flatMap fun p => (below a c p).map fun e => (.element e, .element p)

end Relation

open PageLogic.Relation

/-- The property that a relation of two arguments is about, if it is about one. -/
def Binary.property? : Binary → Option Property
  | .tag => some (always .tagName fun _ (name : String) => .str (Text.lowercase name))
  | .text => some (always .text fun _ (content : String) => .str content)
  | .size => some (always .size fun _ (s : Size) => .ofSize s)
  | .location => some (always .location fun _ (l : Location) => .ofLocation l)
  | .attributeOf name => some (attributeNamed name)
  | .property p => some p
  | .childOf => none

/-- The reading that a relation of one argument is about, if it is about an element. -/
def Unary.reading? : Unary → Option (Handle → Reading Bool)
  | .displayed => some fun e => .of (.displayed e) id
  | .enabled => some fun e => .of (.enabled e) id
  | .attached => some fun e => .of (.exists e) id
  | .present => some .present
  | .selected => some fun e => .of (.selected e) id
  | .visible => some fun e => .of (.visible e) id
  | .title | .currentUrl | .knownTag | .knownAttribute => none

/-- The facts of a page whose elements are the candidates. -/
def Facts.of (a : Answers) (c : Context) (candidates : List Handle) : Facts where
  unary
    | .title => pageValue a (.of .title id)
    | .currentUrl => pageValue a (.of .currentUrl id)
    | .knownTag => knownTags.map .str
    | .knownAttribute => knownAttributes.map .str
    | r => r.reading?.elim [] (holders a candidates)
  binary r := r.property?.elim (childRows a c candidates) (rows a candidates)

variable {σ : Type} {o : Oracle σ} {a : Answers} {c : Context} {I : Handle → Prop}
  {candidates : List Handle} {n : Nat}

theorem Binary.goal_of_property? {r : Binary} {property : Property}
    (h : r.property? = some property) : r.goal = ofProperty property := by
  cases r with
  | attributeOf name =>
      obtain rfl := Option.some.inj h
      funext element value c b
      exact carries_eq_ofProperty (by rw [Binding.of, Substitution.walk_of_not_isVar rfl]) _ _
  | childOf => cases h
  | _ =>
      obtain rfl := Option.some.inj h
      rfl

theorem Unary.goal_of_reading? {r : Unary} {read : Handle → Reading Bool}
    (h : r.reading? = some read) (t : Term) :
    r.goal t = ofProperty (holdingProperty read) t (.bool true) := by
  cases r <;> cases h <;> rfl

/-- The relation of an element and a property is the table of its rows. -/
theorem Relation.expresses_rows (hCoherent : a.Coherent c I candidates) {property : Property}
    (hProperty : Tabular a I candidates property) {element value : Term}
    (hElement : element.Within (NamesOnly I) n) (hValue : value.Within (NamesOnly I) n) :
    (ofProperty property element value).Expresses o (o.Steady a) c (NamesOnly I) n
      ((rows a candidates property).map fun row v =>
        element.replace v = row.1 ∧ value.replace v = row.2) := by
  have hTable := expresses_ofProperty (o := o) hCoherent hProperty hElement hValue
  simpa only [rows, table, Branch.both_singleton, List.map_flatMap, List.map_map,
    Function.comp_def] using hTable

theorem Relation.expresses_childRows (hCoherent : a.Coherent c I candidates) {child parent : Term}
    (hChild : child.Within (NamesOnly I) n) (hParent : parent.Within (NamesOnly I) n) :
    (childOf child parent).Expresses o (o.Steady a) c (NamesOnly I) n
      ((childRows a c candidates).map fun row v =>
        child.replace v = row.1 ∧ parent.replace v = row.2) := by
  have hTable := expresses_childOf (o := o) hCoherent hChild hParent
  simpa only [childRows, table, Branch.both_singleton, List.map_flatMap, List.map_map,
    Function.comp_def, and_comm] using hTable

/-- A yes-or-no relation is the list of the elements of which it holds. -/
theorem Relation.expresses_holders (hCoherent : a.Coherent c I candidates)
    {read : Handle → Reading Bool} (hRead : Tabular a I candidates (holdingProperty read))
    {element : Term} (hElement : element.Within (NamesOnly I) n) :
    (ofProperty (holdingProperty read) element (.bool true)).Expresses o (o.Steady a) c
      (NamesOnly I) n ((holders a candidates read).map fun t v => element.replace v = t) := by
  intro b hb hn
  have hTrue : (Term.bool true).Within (NamesOnly I) n := by
    simp [Term.Built, Term.leaves, Term.LeafOf, NamesOnly]
  obtain ⟨bs, hDelivers, hCovered⟩ :=
    expresses_rows (o := o) hCoherent hRead hElement hTrue b hb hn
  refine ⟨bs, hDelivers, ?_⟩
  have hFiltered := hCovered.filter (p := fun row => row.2 = .bool true) fun row _ hRow v _ hEq => ?_
  · rw [holders, List.map_map]
    refine hFiltered.congr fun row hRow v _ => ?_
    obtain ⟨_, hValue⟩ := List.mem_filter.mp hRow
    have hValue : row.2 = .bool true := by simpa using hValue
    simp [hValue, Term.replace]
  · exact absurd hEq.2.symm (by simpa [Term.replace] using hRow)

/-- The words of a vocabulary are a table. -/
theorem Relation.expresses_vocabulary (words : List String) {t : Term}
    (ht : t.Within (NamesOnly I) n) :
    (Goal.memberOf t (words.map .str)).Expresses o (o.Steady a) c (NamesOnly I) n
      ((words.map Term.str).map fun u v => t.replace v = u) := by
  have hMember := Goal.expresses_memberOf (o := o) (K := o.Steady a) (c := c) ht
    (List.forall_mem_map.mpr fun word (_ : word ∈ words) =>
      (show (Term.str word).Within (NamesOnly I) n by simp [Term.Built, Term.LeafOf, NamesOnly]))
  rw [List.map_map] at hMember ⊢
  exact hMember

/-- Where the candidates are all elements that answer, and only recognized faults occur, every
relation is the table of its facts. -/
theorem Facts.hold_of_coherent (hCoherent : a.Coherent c I candidates) {L : Fragment}
    (hConstant : L.constant = NamesOnly I)
    (hUnary : ∀ r, L.unary r → ∀ read, r.reading? = some read →
      Tabular a I candidates (holdingProperty read))
    (hTitle : L.unary .title → ∀ f, a .title = .error f → f.isRecognized = true)
    (hUrl : L.unary .currentUrl → ∀ f, a .currentUrl = .error f → f.isRecognized = true)
    (hBinary : ∀ r, L.binary r → ∀ property, r.property? = some property →
      Tabular a I candidates property) :
    (Facts.of a c candidates).Hold o (o.Steady a) c L := by
  have hPage (q : Question) (f : q.Value → String)
      (hRecognized : ∀ e, a q = .error e → e.isRecognized = true) :
      ∀ e, (Reading.of q f).outcome a = .error e → e.isRecognized = true := by
    intro e he
    rw [Reading.outcome_of, Reading.map_eq_error_iff] at he
    exact hRecognized e he
  constructor
  · intro r hr n t ht
    rw [hConstant] at ht ⊢
    have hHolders (read : Handle → Reading Bool) (h : r.reading? = some read)
        (hFacts : (Facts.of a c candidates).unary r = holders a candidates read) :
        (r.goal t).Expresses o (o.Steady a) c (NamesOnly I) n
          (((Facts.of a c candidates).unary r).map fun u v => t.replace v = u) := by
      rw [Unary.goal_of_reading? h, hFacts]
      exact expresses_holders hCoherent (hUnary r hr read h) ht
    cases r with
    | title => exact expresses_pageFact (hPage .title id (hTitle hr)) ht
    | currentUrl => exact expresses_pageFact (hPage .currentUrl id (hUrl hr)) ht
    | knownTag => exact expresses_vocabulary knownTags ht
    | knownAttribute => exact expresses_vocabulary knownAttributes ht
    | _ => exact hHolders _ rfl rfl
  · intro r hr n t u ht hu
    rw [hConstant] at ht hu ⊢
    cases hProperty : r.property? with
    | some property =>
        have hRows : (Facts.of a c candidates).binary r = rows a candidates property := by
          simp only [Facts.of, hProperty, Option.elim_some]
        rw [Binary.goal_of_property? hProperty, hRows]
        exact expresses_rows hCoherent (hBinary r hr property hProperty) ht hu
    | none =>
        cases r with
        | childOf => exact expresses_childRows hCoherent ht hu
        | _ => cases hProperty

end PageLogic
