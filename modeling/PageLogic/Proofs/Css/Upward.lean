import PageLogic.Css.Selector
import PageLogic.Proofs.Html.Similar
/-!
Selectors that look upward only. A selector without sibling combinators, without conditions on the
number of an element and without `:empty` depends on the element and on those above it, so that it
matches similar elements alike.
-/
namespace PageLogic.Css

open Html (Position Element)

/-- The combinator leads to elements above. -/
def Combinator.leadsUpward : Combinator → Bool
  | .descendant | .child => true
  | .next | .later => false

mutual

/-- The condition concerns nothing but the element and the elements above it. -/
def Simple.looksUpward : Simple → Bool
  | .empty | .ordinal _ => false
  | .none alternatives => Complex.allLookUpward alternatives
  | _ => true

def Simple.allLookUpward : List Simple → Bool
  | [] => true
  | t :: rest => t.looksUpward && Simple.allLookUpward rest

def Complex.looksUpward : Complex → Bool
  | .compound tests => Simple.allLookUpward tests
  | .joined left combinator tests =>
    combinator.leadsUpward && left.looksUpward && Simple.allLookUpward tests

def Complex.allLookUpward : List Complex → Bool
  | [] => true
  | c :: rest => c.looksUpward && Complex.allLookUpward rest

end

/-- The selector concerns nothing but an element and the elements above it. -/
def Selector.looksUpward (s : Selector) : Bool :=
  Complex.allLookUpward s.alternatives

/-- From similar elements, a combinator that leads upward leads to similar elements. -/
theorem Combinator.forall₂_lead {c : Combinator} (hc : c.leadsUpward = true) {p q : Position}
    (h : p.Similar q) : List.Forall₂ Position.Similar (c.lead p) (c.lead q) := by
  cases c with
  | descendant => exact h.ancestors
  | child => exact List.forall₂_take 1 h.ancestors
  | next | later => cases hc

theorem any_congr_of_similar {l m : List Position} (h : List.Forall₂ Position.Similar l m)
    {test : Position → Bool} (hTest : ∀ p q, p.Similar q → test p = test q) :
    l.any test = m.any test := by
  induction h with
  | nil => rfl
  | cons hHead _ ih => rw [List.any_cons, List.any_cons, ih, hTest _ _ hHead]

section

variable (start : Option Element)

mutual

theorem Simple.holds_similar : ∀ (t : Simple), t.looksUpward = true → ∀ p q : Position,
    p.Similar q → t.holds start p = t.holds start q
  | .universal, _, _, _, _ | .unspaced, _, _, _, _ | .host, _, _, _, _ => by
    simp only [Simple.holds]
  | .tag _, _, _, _, h | .id _, _, _, _, h | .className _, _, _, _, h
  | .attribute _, _, _, _, h => by
    simp only [Simple.holds, h.element_eq]
  | .outermost, _, _, _, h => by
    simp only [Simple.holds, h.isOutermost_eq]
  | .scope, _, _, _, h => by
    simp only [Simple.holds, h.isOutermost_eq, h.element_eq]
  | .empty, hUpward, _, _, _ | .ordinal _, hUpward, _, _, _ => by
    simp [Simple.looksUpward] at hUpward
  | .none alternatives, hUpward, p, q, h => by
    rw [Simple.looksUpward] at hUpward
    rw [Simple.holds, Simple.holds, Complex.anyMatches_similar alternatives hUpward p q h]

theorem Simple.allHold_similar : ∀ (ts : List Simple), Simple.allLookUpward ts = true →
    ∀ p q : Position, p.Similar q → Simple.allHold start ts p = Simple.allHold start ts q
  | [], _, _, _, _ => by simp only [Simple.allHold]
  | t :: rest, hUpward, p, q, h => by
    rw [Simple.allLookUpward, Bool.and_eq_true] at hUpward
    rw [Simple.allHold, Simple.allHold, Simple.holds_similar t hUpward.1 p q h,
      Simple.allHold_similar rest hUpward.2 p q h]

theorem Complex.matches_similar : ∀ (c : Complex), c.looksUpward = true → ∀ p q : Position,
    p.Similar q → c.matches start p = c.matches start q
  | .compound tests, hUpward, p, q, h => by
    rw [Complex.looksUpward] at hUpward
    rw [Complex.matches, Complex.matches, Simple.allHold_similar tests hUpward p q h]
  | .joined left combinator tests, hUpward, p, q, h => by
    rw [Complex.looksUpward, Bool.and_eq_true, Bool.and_eq_true] at hUpward
    obtain ⟨⟨hCombinator, hLeft⟩, hTests⟩ := hUpward
    have hLead := any_congr_of_similar (Combinator.forall₂_lead hCombinator h)
      (Complex.matches_similar left hLeft)
    rw [Complex.matches, Complex.matches, Simple.allHold_similar tests hTests p q h, hLead]

theorem Complex.anyMatches_similar : ∀ (cs : List Complex), Complex.allLookUpward cs = true →
    ∀ p q : Position, p.Similar q → Complex.anyMatches start cs p = Complex.anyMatches start cs q
  | [], _, _, _, _ => by simp only [Complex.anyMatches]
  | c :: rest, hUpward, p, q, h => by
    rw [Complex.allLookUpward, Bool.and_eq_true] at hUpward
    rw [Complex.anyMatches, Complex.anyMatches, Complex.matches_similar c hUpward.1 p q h,
      Complex.anyMatches_similar rest hUpward.2 p q h]

end

end

/-- A selector that looks upward only matches similar elements alike. -/
theorem Selector.matches_similar {s : Selector} (hUpward : s.looksUpward = true)
    (start : Option Element) {p q : Position} (h : p.Similar q) :
    s.matches start p = s.matches start q :=
  Complex.anyMatches_similar start s.alternatives hUpward p q h

end PageLogic.Css
