import PageLogic.Proofs.Page.Change
/-!
Searches whose items are right about the page at the moment they are delivered. Between two pulls the
page may become any other, so what comes after an item must be right whatever page it then meets;
questions in between are answered by the page of the pull. A session follows an open search through
pulls and changes of its page.
-/
namespace PageLogic

namespace Search

/-- Pulled on the page, the search delivers an item that `P` holds of, if any, and so do the pulls that
follow, each on the page it meets. A search that draws on an endless supply is not of this kind. -/
def Vouches (P : Page → Item → Prop) : Search → Page → Prop
  | .done, _ => True
  | .emit item rest, p => P p item ∧ ∀ p', Vouches P rest p'
  | .note _ rest, p => Vouches P rest p
  | .delay rest, p => Vouches P (rest ()) p
  | .ask q next, p => Vouches P (next (p.answer q)) p
  | .forever .., _ => False
  | .seek .., _ => False

namespace Vouches

variable {P : Page → Item → Prop} {p : Page} {s t : Search}

theorem mono {P' : Page → Item → Prop} (hMono : ∀ p item, P p item → P' p item)
    (h : s.Vouches P p) : s.Vouches P' p := by
  induction s generalizing p with
  | done => trivial
  | emit item rest ih => exact ⟨hMono p item h.1, fun p' => ih (h.2 p')⟩
  | note m rest ih => exact ih h
  | delay rest ih => exact ih () h
  | ask q next ih => exact ih _ h
  | forever part start _ => exact h.elim
  | seek part start next _ _ => exact h.elim

theorem append (h : s.Vouches P p) (ht : ∀ p', t.Vouches P p') : (s.append t).Vouches P p := by
  induction s generalizing p with
  | done => exact ht p
  | emit item rest ih => exact ⟨h.1, fun p' => ih (h.2 p')⟩
  | note m rest ih => exact ih h
  | delay rest ih => exact ih () h
  | ask q next ih => exact ih _ h
  | forever part start _ => exact h.elim
  | seek part start next _ _ => exact h.elim

theorem each {α : Type} {f : α → Search} {l : List α} (h : ∀ x ∈ l, ∀ p', (f x).Vouches P p')
    (p : Page) : (Search.each f l).Vouches P p := by
  induction l generalizing p with
  | nil => trivial
  | cons x rest ih =>
      obtain ⟨hHead, hTail⟩ := List.forall_mem_cons.mp h
      exact (hHead p).append (ih hTail)

theorem read {α : Type} {r : Reading α} {f : Except Fault α → Search}
    (h : (f (r.outcome p.answer)).Vouches P p) : (Search.read r f).Vouches P p := by
  induction r with
  | value x => exact h
  | fault e => exact h
  | ask q next ih => exact ih _ h

theorem ofOption {b : Option Branch} (h : ∀ r, b = some r → P p (.ok r)) :
    (Search.ofOption b).Vouches P p := by
  cases b with
  | none => trivial
  | some r => exact ⟨h r rfl, fun _ => trivial⟩

theorem failure {e : Error} (h : P p (.error e)) : (Search.failure e).Vouches P p :=
  ⟨h, fun _ => trivial⟩

/-- A pull delivers an item that is right about the page, and leaves a search of the same kind. -/
theorem pull (h : s.Vouches P p) {w : World Page} (hw : p.Asked w.state) :
    match (s.pull Page.oracle w).1 with
    | .item item rest => P p item ∧ ∀ p', rest.Vouches P p'
    | .ended => True := by
  induction s generalizing w with
  | done => trivial
  | emit item rest _ => exact h
  | note m rest ih => exact ih h hw
  | delay rest ih => exact ih () h hw
  | ask q next ih =>
      have hAnswer : (Page.oracle.answer q w.state).1 = p.answer q := hw.answer_eq q
      have hNext := ih (p.answer q) h (w := ⟨(Page.oracle.answer q w.state).2, w.marks⟩)
        (p.keeps_asked q _ hw)
      rw [← hAnswer] at hNext
      exact hNext
  | forever part start _ => exact h.elim
  | seek part start next _ _ => exact h.elim

end Vouches

end Search

/-! ### Sessions -/

/-- An open search and the page that it meets. -/
structure Session where
  search : Search
  page : Page

namespace Session

/-- What happens in a session. -/
inductive Event where
  | pull
  | change (c : Page.Change)

/-- What a pull delivered, if anything, and the page on which it did. -/
structure Sighting where
  page : Page
  item : Option Item

/-- One event: the session after it, and what a pull delivered. -/
def step (s : Session) : Event → Session × List Sighting
  | .pull =>
    match s.search.pull Page.oracle (.of s.page) with
    | (.item item rest, w) => (⟨rest, w.state⟩, [⟨s.page, some item⟩])
    | (.ended, w) => (⟨.done, w.state⟩, [⟨s.page, none⟩])
  | .change c => (⟨s.search, s.page.change c⟩, [])

/-- The session after some events, in order. -/
def after (s : Session) (events : List Event) : Session :=
  events.foldl (fun s e => (s.step e).1) s

/-- What the pulls among some events deliver, in order. -/
def sightings (s : Session) : List Event → List Sighting
  | [] => []
  | e :: rest => (s.step e).2 ++ sightings (s.step e).1 rest

variable {P : Page → Item → Prop} {s : Session}

theorem step_pull (s : Session) :
    s.step .pull =
      match s.search.pull Page.oracle (.of s.page) with
      | (.item item rest, w) => (⟨rest, w.state⟩, [⟨s.page, some item⟩])
      | (.ended, w) => (⟨.done, w.state⟩, [⟨s.page, none⟩]) :=
  rfl

/-- No event goes back to an older generation. -/
theorem generation_le_step (s : Session) (e : Event) :
    s.page.generation ≤ (s.step e).1.page.generation := by
  cases e with
  | change c => exact s.page.generation_le_change c
  | pull =>
      have hAsked := (Page.Asked.refl s.page).pull (w := .of s.page) s.search
      rw [step_pull]
      generalize s.search.pull Page.oracle (.of s.page) = pulled at hAsked ⊢
      obtain ⟨_ | _, w⟩ := pulled <;> exact hAsked.generation_eq.ge

theorem generation_le_after (s : Session) (events : List Event) :
    s.page.generation ≤ (s.after events).page.generation := by
  induction events generalizing s with
  | nil => exact Nat.le_refl _
  | cons e rest ih => exact Nat.le_trans (s.generation_le_step e) (ih (s.step e).1)

/-- The pages of later pulls are of no older generation. -/
theorem generation_le_sightings (s : Session) (events : List Event) :
    ∀ seen ∈ s.sightings events, s.page.generation ≤ seen.page.generation := by
  induction events generalizing s with
  | nil => simp [sightings]
  | cons e rest ih =>
      intro seen hSeen
      rcases List.mem_append.mp hSeen with hSeen | hSeen
      · cases e with
        | change c => simp [step] at hSeen
        | pull =>
            have hPage : seen.page = s.page := by
              rw [step_pull] at hSeen
              generalize s.search.pull Page.oracle (.of s.page) = pulled at hSeen
              obtain ⟨_ | _, w⟩ := pulled <;> rw [List.mem_singleton.mp hSeen]
            rw [hPage]
      · exact Nat.le_trans (s.generation_le_step e) (ih (s.step e).1 seen hSeen)

/-- One pull of a search that is right about the page. -/
theorem step_pull_vouches (h : s.search.Vouches P s.page) :
    (∀ p, (s.step .pull).1.search.Vouches P p) ∧
      ∀ seen ∈ (s.step .pull).2, ∀ item, seen.item = some item → P seen.page item := by
  have hPull := h.pull (w := .of s.page) (.refl _)
  rw [step_pull]
  generalize s.search.pull Page.oracle (.of s.page) = pulled at hPull ⊢
  obtain ⟨⟨item, rest⟩ | _, w⟩ := pulled
  · obtain ⟨hItem, hRest⟩ := hPull
    refine ⟨hRest, fun seen hSeen item' hEq => ?_⟩
    obtain rfl := List.mem_singleton.mp hSeen
    obtain rfl := Option.some.inj hEq
    exact hItem
  · refine ⟨fun _ => trivial, fun seen hSeen item' hEq => ?_⟩
    obtain rfl := List.mem_singleton.mp hSeen
    cases hEq

/-- A search that is right about every page stays so, and what it delivers is right. -/
theorem step_vouches (h : ∀ p, s.search.Vouches P p) (e : Event) :
    (∀ p, (s.step e).1.search.Vouches P p) ∧
      ∀ seen ∈ (s.step e).2, ∀ item, seen.item = some item → P seen.page item := by
  cases e with
  | change c => exact ⟨h, by simp [step]⟩
  | pull => exact step_pull_vouches (h s.page)

theorem after_vouches (h : ∀ p, s.search.Vouches P p) (events : List Event) :
    ∀ p, (s.after events).search.Vouches P p := by
  induction events generalizing s with
  | nil => exact h
  | cons e rest ih => exact ih (step_vouches h e).1

/-- Whatever happens, what the pulls deliver is right about the page of the pull. -/
theorem sightings_vouched (h : ∀ p, s.search.Vouches P p) (events : List Event) :
    ∀ seen ∈ s.sightings events, ∀ item, seen.item = some item → P seen.page item := by
  induction events generalizing s with
  | nil => simp [sightings]
  | cons e rest ih =>
      obtain ⟨hRest, hHead⟩ := step_vouches h e
      intro seen hSeen
      rcases List.mem_append.mp hSeen with hSeen | hSeen
      · exact hHead seen hSeen
      · exact ih hRest seen hSeen

/-! ### Searches that settle on a generation

The first pull fixes which handles a search is about. What it vouches for from then on depends on the
generation of the page at that moment. -/

variable {Q : Nat → Page → Item → Prop}

/-- Whatever happens, each pull delivers what is right about its page and about the generation that
the search has settled on. -/
theorem sightings_settled (h : ∀ p, s.search.Vouches (Q p.generation) p) (events : List Event) :
    ∀ seen ∈ s.sightings events, ∀ item, seen.item = some item → ∃ g, Q g seen.page item := by
  induction events generalizing s with
  | nil => simp [sightings]
  | cons e rest ih =>
      cases e with
      | change c => exact ih h
      | pull =>
          obtain ⟨hRest, hHead⟩ := step_pull_vouches (h s.page)
          intro seen hSeen item hItem
          refine ⟨s.page.generation, ?_⟩
          rcases List.mem_append.mp hSeen with hSeen | hSeen
          · exact hHead seen hSeen item hItem
          · exact sightings_vouched hRest rest seen hSeen item hItem

/-- After a pull the search has settled on a generation, and the page is of none before it. -/
theorem after_settled (h : ∀ p, s.search.Vouches (Q p.generation) p) {events : List Event}
    (hPull : .pull ∈ events) :
    ∃ g ≤ (s.after events).page.generation, ∀ p, (s.after events).search.Vouches (Q g) p := by
  induction events generalizing s with
  | nil => cases hPull
  | cons e rest ih =>
      cases e with
      | change c =>
          refine ih h ?_
          rcases List.mem_cons.mp hPull with hEq | hRest
          · cases hEq
          · exact hRest
      | pull =>
          refine ⟨s.page.generation, s.generation_le_after (.pull :: rest), ?_⟩
          exact after_vouches (step_pull_vouches (h s.page)).1 rest

/-- If items are right about pages of their own generation only, then no pull delivers anything once
another document was loaded after the first pull. -/
theorem sightings_after_navigate (h : ∀ p, s.search.Vouches (Q p.generation) p)
    (hOwn : ∀ g p item, Q g p item → p.generation = g) {front : List Event}
    (hPull : .pull ∈ front) (url source : String) (behind : List Event) :
    ∀ seen ∈ (s.after (front ++ [.change (.navigate url source)])).sightings behind,
      seen.item = none := by
  obtain ⟨g, hLe, hVouches⟩ := after_settled h hPull
  have hAfter : s.after (front ++ [.change (.navigate url source)]) =
      ((s.after front).step (.change (.navigate url source))).1 := by
    rw [after, List.foldl_append]
    rfl
  rw [hAfter]
  intro seen hSeen
  have hLater := generation_le_sightings _ behind seen hSeen
  have hNewer : ((s.after front).step (.change (.navigate url source))).1.page.generation =
      (s.after front).page.generation + 1 := rfl
  cases hItem : seen.item with
  | none => rfl
  | some item =>
      have hQ := sightings_vouched (step_vouches hVouches _).1 behind seen hSeen item hItem
      have hGeneration := hOwn g seen.page item hQ
      omega

end Session

end PageLogic
