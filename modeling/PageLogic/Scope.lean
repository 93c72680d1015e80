/-!
Scopes: the selectors that bound what an unknown element ranges over. The root scope bounds the
whole page, the child scope what lies beneath a known element. Both are handed on unread.
-/
namespace PageLogic

structure Scope where
  root : String
  child : String
  deriving DecidableEq, Repr

namespace Scope

/-- Every element, at the top and below. -/
def everything : Scope := ⟨"*", "*"⟩

/-- A partial replacement of the two selectors. -/
structure Override where
  root : Option String
  child : Option String
  deriving DecidableEq, Repr

namespace Override

def none : Override := ⟨.none, .none⟩

def isEmpty (o : Override) : Bool :=
  o.root.isNone && o.child.isNone

/-- The override that has the effect of `outer` followed by `inner`. -/
def followedBy (outer inner : Override) : Override :=
  ⟨inner.root <|> outer.root, inner.child <|> outer.child⟩

end Override

/-- Each selector that the override names takes the place of the present one. -/
def overridden (s : Scope) (o : Override) : Scope :=
  ⟨o.root.getD s.root, o.child.getD s.child⟩

@[simp] theorem overridden_none (s : Scope) : s.overridden .none = s := rfl

theorem overridden_followedBy (s : Scope) (outer inner : Override) :
    s.overridden (outer.followedBy inner) = (s.overridden outer).overridden inner := by
  obtain ⟨r, c⟩ := outer
  obtain ⟨r', c'⟩ := inner
  cases r <;> cases c <;> cases r' <;> cases c' <;> rfl

end Scope

end PageLogic
