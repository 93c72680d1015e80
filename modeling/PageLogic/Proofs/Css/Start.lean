import PageLogic.Css.Selector
/-!
Where a selection starts from. Only `:scope` asks for it, so that a selector without `:scope` matches
the same elements wherever the selection starts.
-/
namespace PageLogic.Css

mutual

/-- The condition asks for the element that the selection starts from. -/
def Simple.mentionsScope : Simple → Bool
  | .scope => true
  | .none alternatives => Complex.anyMentionsScope alternatives
  | _ => false

def Simple.anyMentionsScope : List Simple → Bool
  | [] => false
  | t :: rest => t.mentionsScope || Simple.anyMentionsScope rest

def Complex.mentionsScope : Complex → Bool
  | .compound tests => Simple.anyMentionsScope tests
  | .joined left _ tests => left.mentionsScope || Simple.anyMentionsScope tests

def Complex.anyMentionsScope : List Complex → Bool
  | [] => false
  | c :: rest => c.mentionsScope || Complex.anyMentionsScope rest

end

/-- The selector uses `:scope`. -/
def Selector.mentionsScope (s : Selector) : Bool :=
  Complex.anyMentionsScope s.alternatives

section

variable (start start' : Option Html.Element)

mutual

theorem Simple.holds_congr : ∀ (t : Simple), t.mentionsScope = false → ∀ p,
    t.holds start p = t.holds start' p
  | .universal, _, _ | .unspaced, _, _ | .tag _, _, _ | .id _, _, _ | .className _, _, _
  | .attribute _, _, _ | .outermost, _, _ | .empty, _, _ | .ordinal _, _, _ | .host, _, _ => by
    simp only [Simple.holds]
  | .scope, h, _ => by simp [Simple.mentionsScope] at h
  | .none alternatives, h, p => by
    rw [Simple.mentionsScope] at h
    rw [Simple.holds, Simple.holds, Complex.anyMatches_congr alternatives h p]

theorem Simple.allHold_congr : ∀ (ts : List Simple), Simple.anyMentionsScope ts = false → ∀ p,
    Simple.allHold start ts p = Simple.allHold start' ts p
  | [], _, _ => by simp only [Simple.allHold]
  | t :: rest, h, p => by
    obtain ⟨hHead, hRest⟩ := by simpa only [Simple.anyMentionsScope, Bool.or_eq_false_iff] using h
    rw [Simple.allHold, Simple.allHold, Simple.holds_congr t hHead p,
      Simple.allHold_congr rest hRest p]

theorem Complex.matches_congr : ∀ (c : Complex), c.mentionsScope = false → ∀ p,
    c.matches start p = c.matches start' p
  | .compound tests, h, p => by
    rw [Complex.mentionsScope] at h
    rw [Complex.matches, Complex.matches, Simple.allHold_congr tests h p]
  | .joined left combinator tests, h, p => by
    obtain ⟨hLeft, hTests⟩ := by
      simpa only [Complex.mentionsScope, Bool.or_eq_false_iff] using h
    have hLead : (fun q => left.matches start q) = fun q => left.matches start' q :=
      funext (Complex.matches_congr left hLeft)
    rw [Complex.matches, Complex.matches, Simple.allHold_congr tests hTests p, hLead]

theorem Complex.anyMatches_congr : ∀ (cs : List Complex), Complex.anyMentionsScope cs = false →
    ∀ p, Complex.anyMatches start cs p = Complex.anyMatches start' cs p
  | [], _, _ => by simp only [Complex.anyMatches]
  | c :: rest, h, p => by
    obtain ⟨hHead, hRest⟩ := by
      simpa only [Complex.anyMentionsScope, Bool.or_eq_false_iff] using h
    rw [Complex.anyMatches, Complex.anyMatches, Complex.matches_congr c hHead p,
      Complex.anyMatches_congr rest hRest p]

end

end

/-- A selector without `:scope` matches the same elements wherever the selection starts. -/
theorem Selector.matches_congr {s : Selector} (h : s.mentionsScope = false)
    (start start' : Option Html.Element) (p : Html.Position) :
    s.matches start p = s.matches start' p :=
  Complex.anyMatches_congr start start' s.alternatives h p

end PageLogic.Css
