import PageLogic.Proofs.Html.Similar
import PageLogic.Proofs.Page.Lifecycle
import PageLogic.Proofs.Page.Refusal
/-!
Pages that answer alike under a renaming of handles. An answer depends on the element that a handle
names, and on the page as a whole; where two pages agree on these, the answers agree, except that the
handles in them, and in the explanations of refusals, are the renamed ones.
-/
namespace PageLogic

variable {ρ : Handle → Handle}

/-- The question about the renamed element. -/
def Question.rename (ρ : Handle → Handle) : Question → Question
  | .elements scope => .elements scope
  | .descendants e scope => .descendants (ρ e) scope
  | .attribute e name => .attribute (ρ e) name
  | .tagName e => .tagName (ρ e)
  | .text e => .text (ρ e)
  | .size e => .size (ρ e)
  | .location e => .location (ρ e)
  | .displayed e => .displayed (ρ e)
  | .enabled e => .enabled (ρ e)
  | .exists e => .exists (ρ e)
  | .selected e => .selected (ρ e)
  | .visible e => .visible (ρ e)
  | .title => .title
  | .currentUrl => .currentUrl

/-- The value with the handles in it renamed. -/
def Question.renameValue (ρ : Handle → Handle) : (q : Question) → q.Value → (q.rename ρ).Value
  | .elements _, es | .descendants _ _, es => es.map ρ
  | .attribute _ _, value => value
  | .tagName _, value | .text _, value | .title, value | .currentUrl, value => value
  | .size _, value => value
  | .location _, value => value
  | .displayed _, value | .enabled _, value | .exists _, value | .selected _, value
  | .visible _, value => value

namespace Page

variable {p p' : Page} {q : Question} {e : Handle} {generation index i j : Nat}

/-- The refusal with the handle in it renamed. -/
def Refusal.rename (ρ : Handle → Handle) : Refusal → Refusal
  | .unissued e => .unissued (ρ e)
  | .stale e => .stale (ρ e)
  | .failing e kind => .failing (ρ e) kind
  | .failingPage what kind => .failingPage what kind
  | .unreadable scope => .unreadable scope

/-- The second result is the first one with the handles in it renamed. -/
inductive Echo (ρ : Handle → Handle) {α β : Type} (f : α → β) :
    Except Fault α → Except Fault β → Prop where
  | value (a : α) : Echo ρ f (.ok a) (.ok (f a))
  | refusal (r : Refusal) : Echo ρ f (.error r.fault) (.error (r.rename ρ).fault)

/-- The second page answers the renamed question as the first page answers the question. -/
def Echoes (ρ : Handle → Handle) (p p' : Page) (q : Question) : Prop :=
  Echo ρ (q.renameValue ρ) (p.answer q) (p'.answer (q.rename ρ))

/-! ### Pages that mirror each other -/

/-- An element of one page and an element of another one do not differ in what the question asks. -/
structure Counterparts (ρ : Handle → Handle) (p p' : Page) (q : Question) (i : Nat)
    (position : Html.Position) (j : Nat) (position' : Html.Position) : Prop where
  box : p.boxes.lookup i = p'.boxes.lookup j
  similar : position.Similar position'
  text : ∀ e, q = .text e → textOf position = textOf position'
  beneath : ∀ e scope s, q = .descendants e scope → Css.Selector.parse? scope = some s →
    p'.matchingBelow j position' s = (p.matchingBelow i position s).map ρ

/-- The pages refuse a handle and the renamed one alike, or the two name counterparts. -/
inductive FindsAlike (ρ : Handle → Handle) (p p' : Page) (q : Question) (e : Handle) : Prop where
  | refused (r : Refusal) (h : p.inspect e = .error r.fault)
      (h' : p'.inspect (ρ e) = .error (r.rename ρ).fault)
  | found {i j : Nat} {position position' : Html.Position} (h : p.inspect e = .ok (i, position))
      (h' : p'.inspect (ρ e) = .ok (j, position'))
      (counterparts : Counterparts ρ p p' q i position j position')

/-- The pages agree on what the question is about. -/
structure Mirrors (ρ : Handle → Handle) (p p' : Page) (q : Question) : Prop where
  subject : ∀ e, q.subject? = some e → FindsAlike ρ p p' q e
  elements : ∀ scope s, q = .elements scope → Css.Selector.parse? scope = some s →
    p'.matching s = (p.matching s).map ρ
  title : q = .title → p'.document.title = p.document.title
  url : p'.url = p.url
  pageFault : p'.pageFault = p.pageFault

/-- Handles that are read and name places of the present documents are found alike, if the places have
the same fault and neither or both are taken out or empty, and if what stands there are counterparts. -/
theorem FindsAlike.of_places (hRead : parseHandle e = some (p.generation, i))
    (hRead' : parseHandle (ρ e) = some (p'.generation, j)) (hDetached : i ∈ p.detached ↔ j ∈ p'.detached)
    (hFault : p.faults.lookup i = p'.faults.lookup j)
    (hPlaces : p.document.positions[i]? = none ∧ p'.document.positions[j]? = none ∨
      ∃ position position', p.document.positions[i]? = some position ∧
        p'.document.positions[j]? = some position' ∧
        Counterparts ρ p p' q i position j position') : FindsAlike ρ p p' q e := by
  by_cases hGone : i ∈ p.detached
  · exact .refused (.stale e) (inspect_of_gone hRead (.inr (.inl hGone)))
      (inspect_of_gone hRead' (.inr (.inl (hDetached.mp hGone))))
  · rcases hPlaces with ⟨hNone, hNone'⟩ | ⟨position, position', hFound, hFound', hCounterparts⟩
    · exact .refused (.stale e) (inspect_of_gone hRead (.inr (.inr hNone)))
        (inspect_of_gone hRead' (.inr (.inr hNone')))
    · have hNames : p.Names e i position := ⟨hRead, hGone, hFound⟩
      have hNames' : p'.Names (ρ e) j position' := ⟨hRead', fun h => hGone (hDetached.mpr h), hFound'⟩
      cases hKind : p.faults.lookup i with
      | none =>
          exact .found (hNames.inspect_eq_ok hKind) (hNames'.inspect_eq_ok (hFault ▸ hKind))
            hCounterparts
      | some kind =>
          exact .refused (.failing e kind) (hNames.inspect_eq_failing hKind)
            (hNames'.inspect_eq_failing (hFault ▸ hKind))

/-! ### Answers -/

theorem FindsAlike.aboutElement {α : Type} {f f' : Nat → Html.Position → α}
    (h : FindsAlike ρ p p' q e)
    (hSame : ∀ i position j position', Counterparts ρ p p' q i position j position' →
      f' j position' = f i position) :
    Echo ρ id (p.aboutElement e f) (p'.aboutElement (ρ e) f') := by
  unfold Page.aboutElement
  cases h with
  | refused r h h' =>
      rw [h, h']
      exact .refusal r
  | @found i j position position' h h' hCounterparts =>
      rw [h, h']
      show Echo ρ id (.ok (f i position)) (.ok (f' j position'))
      rw [hSame i position j position' hCounterparts]
      exact .value _

/-- What an element says of itself is answered alike. -/
theorem FindsAlike.ofElement {α : Type} (h : FindsAlike ρ p p' q e) (f : Html.Element → α) :
    Echo ρ id (p.aboutElement e fun _ position => f position.element)
      (p'.aboutElement (ρ e) fun _ position => f position.element) :=
  h.aboutElement fun _ _ _ _ hSame => congrArg f hSame.similar.element_eq.symm

/-- So is where it was placed. -/
theorem FindsAlike.ofBox {α : Type} (h : FindsAlike ρ p p' q e) (f : Option Box → α) :
    Echo ρ id (p.aboutElement e fun index _ => f (p.boxes.lookup index))
      (p'.aboutElement (ρ e) fun index _ => f (p'.boxes.lookup index)) :=
  h.aboutElement fun _ _ _ _ hSame => congrArg f hSame.box.symm

/-- The text of a scope is read alike by all pages. -/
theorem echo_selector {α β : Type} {g : α → β} {f : Css.Selector → α} {f' : Css.Selector → β}
    {scope : String} (h : ∀ s, Css.Selector.parse? scope = some s → f' s = g (f s)) :
    Echo ρ g ((selector scope).map f) ((selector scope).map f') := by
  unfold selector
  cases hParse : Css.Selector.parse? scope with
  | none => exact .refusal (.unreadable scope)
  | some s =>
      show Echo ρ g (.ok _) (.ok _)
      rw [h s hParse]
      exact .value _

theorem echo_aboutPage (h : p'.pageFault = p.pageFault) (what value : String) :
    Echo ρ id (p.aboutPage what value) (p'.aboutPage what value) := by
  unfold aboutPage
  rw [h]
  cases p.pageFault with
  | none => exact .value value
  | some kind => exact .refusal (.failingPage what kind)

/-- Pages that agree on what a question is about answer it alike. -/
theorem Mirrors.echoes (h : p.Mirrors ρ p' q) : Echoes ρ p p' q := by
  cases q with
  | elements scope => exact echo_selector fun s => h.elements scope s rfl
  | descendants e scope =>
      show Echo ρ (List.map ρ) (p.answer (.descendants e scope)) (p'.answer (.descendants (ρ e) scope))
      simp only [answer]
      cases h.subject e rfl with
      | refused r h h' =>
          rw [h, h']
          exact .refusal r
      | found h h' hCounterparts =>
          rw [h, h']
          exact echo_selector fun s => hCounterparts.beneath e scope s rfl
  | «attribute» e name =>
      exact (h.subject e rfl).ofElement fun element => element.attribute? (Text.lowercaseAscii name)
  | tagName e => exact (h.subject e rfl).ofElement fun element => Text.lowercaseAscii element.name
  | text e => exact (h.subject e rfl).aboutElement fun _ _ _ _ hSame => (hSame.text e rfl).symm
  | size e => exact (h.subject e rfl).ofBox fun box => box.elim ⟨0, 0⟩ (·.size)
  | location e => exact (h.subject e rfl).ofBox fun box => box.elim ⟨0, 0⟩ (·.location)
  | displayed e =>
      exact (h.subject e rfl).aboutElement fun _ _ _ _ hSame => hSame.similar.isRendered_eq.symm
  | enabled e => exact (h.subject e rfl).ofElement fun element => !element.hasAttribute "disabled"
  | «exists» e => exact (h.subject e rfl).ofElement fun _ => true
  | selected e =>
      exact (h.subject e rfl).ofElement fun element =>
        element.hasAttribute "selected" || element.hasAttribute "checked"
  | visible e =>
      exact (h.subject e rfl).aboutElement fun _ _ _ _ hSame => hSame.similar.isShown_eq.symm
  | title =>
      show Echo ρ id (p.answer .title) (p'.answer .title)
      simp only [answer]
      rw [h.title rfl]
      exact echo_aboutPage h.pageFault _ _
  | currentUrl =>
      show Echo ρ id (p.answer .currentUrl) (p'.answer .currentUrl)
      simp only [answer]
      rw [h.url]
      exact echo_aboutPage h.pageFault _ _

/-! ### Renaming by number -/

/-- The handle with other numbers in it. A text that holds no two numbers stays as it is. -/
def relabel (f : Nat → Nat → Nat × Nat) (e : Handle) : Handle :=
  match (numerals e).map fun (a, b) => (Text.digits? a, Text.digits? b) with
  | some (some generation, some index) =>
    let (generation, index) := f generation index
    handleOf generation index
  | _ => e

@[simp] theorem relabel_handleOf (f : Nat → Nat → Nat × Nat) (generation index : Nat) :
    relabel f (handleOf generation index) =
      handleOf (f generation index).1 (f generation index).2 := by
  simp [relabel, numerals_handleOf, Text.digits?_toDigits]

end Page

end PageLogic
