import PageLogic.Proofs.Substitution.Acyclic
import Mathlib.Logic.Relation
/-!
Where walks end. A walk follows bindings until there is none to follow, or until it would enter one a
second time. Once the variable at which a walk ended is bound to a constant, that walk ends at the
constant, and a walk that ended at a constant before ends there still. Nothing is asked of the
substitution: its bindings may lead in a circle.
-/
namespace PageLogic

/-- A term that is no variable and holds no other terms. -/
def Term.isAtom : Term → Bool
  | .var _ | .record _ | .list _ => false
  | _ => true

theorem Term.isVar_of_isAtom {t : Term} (h : t.isAtom = true) : t.isVar = false := by
  cases t <;> first | rfl | cases h

namespace Substitution

open Relation

/-- One step along a binding. -/
def Leads (s : Substitution) (t u : Term) : Prop :=
  ∃ x, t = .var x ∧ s.lookup x = some u

variable {s : Substitution} {t u : Term} {x : Var}

theorem leads_rightUnique (s : Substitution) : Relator.RightUnique s.Leads := by
  rintro _ u v ⟨x, rfl, hu⟩ ⟨_, ⟨⟩, hv⟩
  exact Option.some.inj (hu.symm.trans hv)

theorem Leads.of_without (h : (s.without x).Leads t u) : s.Leads t u := by
  obtain ⟨y, rfl, hy⟩ := h
  rw [lookup_without] at hy
  split at hy
  · cases hy
  · exact ⟨y, rfl, hy⟩

/-- A path of steps stays one when bindings that were forgotten are there. -/
theorem path_of_without (h : ReflTransGen (s.without x).Leads t u) : ReflTransGen s.Leads t u :=
  h.lift id fun _ _ => Leads.of_without

/-- No step leads on from a constant. -/
theorem eq_of_path_of_not_isVar (ht : t.isVar = false) (h : ReflTransGen s.Leads t u) : u = t := by
  rcases h.cases_head with rfl | ⟨_, ⟨y, rfl, _⟩, _⟩
  · rfl
  · cases ht

/-- A walk goes from step to step. -/
theorem path_walk (s : Substitution) (t : Term) : ReflTransGen s.Leads t (s.walk t) := by
  induction s, t using follow with
  | bound s x t hx ih =>
      rw [walk_of_lookup hx]
      exact (path_of_without ih).head ⟨x, rfl, hx⟩
  | unbound s x hx =>
      rw [walk_of_unbound hx]
  | _ => rw [walk_of_not_isVar rfl]

/-- A variable at which a walk ends is unbound, or steps lead from it back to itself. -/
theorem unbound_or_circle_of_walk (h : s.walk t = .var x) :
    s.lookup x = none ∨ TransGen s.Leads (.var x) (.var x) := by
  induction s, t using follow with
  | bound s y t hy ih =>
      rw [walk_of_lookup hy] at h
      rcases ih h with hNone | hCircle
      · rw [lookup_without] at hNone
        split at hNone
        · next hEq =>
            subst hEq
            have hBack := path_walk (s.without x) t
            rw [h] at hBack
            exact .inr (TransGen.head' ⟨x, rfl, hy⟩ (path_of_without hBack))
        · exact .inl hNone
      · exact .inr (hCircle.lift id fun _ _ => Leads.of_without)
  | unbound s y hy =>
      rw [walk_of_unbound hy, Term.var.injEq] at h
      exact .inl (h ▸ hy)
  | _ =>
      rw [walk_of_not_isVar rfl] at h
      cases h

/-- Whatever steps lead to from a place on a circle leads back to it. -/
theorem path_back_of_circle (hCircle : TransGen s.Leads t t) (h : ReflTransGen s.Leads t u) :
    ReflTransGen s.Leads u t := by
  induction h with
  | refl => exact .refl
  | @tail v w _ hStep ih =>
      rcases ih.cases_head with rfl | ⟨w', hStep', hRest⟩
      · obtain ⟨w', hStep', hRest⟩ := TransGen.head'_iff.mp hCircle
        rwa [s.leads_rightUnique hStep hStep']
      · rwa [s.leads_rightUnique hStep hStep']

/-- From a variable at which some walk ends no constant can be reached. -/
theorem not_path_of_walk (h : s.walk t = .var x) (hu : u.isVar = false) :
    ¬ ReflTransGen s.Leads (.var x) u := by
  intro hPath
  have hEnd : u = .var x := by
    rcases unbound_or_circle_of_walk h with hNone | hCircle
    · rcases hPath.cases_head with hEq | ⟨_, ⟨y, hVar, hSome⟩, _⟩
      · exact hEq.symm
      · obtain rfl := Term.var.inj hVar
        rw [hNone] at hSome
        cases hSome
    · exact (eq_of_path_of_not_isVar hu (path_back_of_circle hCircle hPath)).symm
  rw [hEnd] at hu
  cases hu

/-! ### Walks after one more binding -/

theorem push_without {y : Var} (h : y ≠ x) : (s.push x u).without y = (s.without y).push x u := by
  simp [push, without, Ne.symm h]

/-- A binding to a constant changes the walks that pass its variable, and no others. -/
theorem walk_push (s : Substitution) (x : Var) (t : Term) (hu : u.isVar = false) :
    ((s.push x u).walk t = s.walk t ∧ s.walk t ≠ .var x) ∨
      ((s.push x u).walk t = u ∧ ReflTransGen s.Leads t (.var x)) := by
  induction s, t using follow with
  | bound s y t hy ih =>
      by_cases hEq : y = x
      · subst hEq
        have hLookup : (s.push y u).lookup y = some u := by
          rw [lookup_push, if_pos rfl]
        exact .inr ⟨by rw [walk_of_lookup hLookup, walk_of_not_isVar hu], .refl⟩
      · have hLookup : (s.push x u).lookup y = some t := by
          rw [lookup_push, if_neg hEq, hy]
        rw [walk_of_lookup hLookup, walk_of_lookup hy, push_without hEq]
        refine ih.imp_right fun h => ⟨h.1, ?_⟩
        exact (path_of_without h.2).head ⟨y, rfl, hy⟩
  | unbound s y hy =>
      by_cases hEq : y = x
      · subst hEq
        have hLookup : (s.push y u).lookup y = some u := by
          rw [lookup_push, if_pos rfl]
        exact .inr ⟨by rw [walk_of_lookup hLookup, walk_of_not_isVar hu], .refl⟩
      · have hLookup : (s.push x u).lookup y = none := by
          rw [lookup_push, if_neg hEq, hy]
        rw [walk_of_unbound hLookup, walk_of_unbound hy]
        exact .inl ⟨rfl, by simpa using hEq⟩
  | _ =>
      rw [walk_of_not_isVar rfl, walk_of_not_isVar rfl]
      exact .inl ⟨rfl, by simp⟩

/-- The term that walked to the variable walks to what the variable is bound to. -/
theorem walk_push_self (h : s.walk t = .var x) (hu : u.isVar = false) :
    (s.push x u).walk t = u := by
  rcases walk_push s x t hu with ⟨_, hNe⟩ | ⟨hEq, _⟩
  · exact absurd h hNe
  · exact hEq

/-- A term that walked to a constant walks there still, if the variable is where some walk ended. -/
theorem walk_push_constant {e v : Term} (hEnd : s.walk e = .var x) (hu : u.isVar = false)
    (h : s.walk t = v) (hv : v.isVar = false) : (s.push x u).walk t = v := by
  rcases walk_push s x t hu with ⟨hEq, _⟩ | ⟨_, hPath⟩
  · rw [hEq, h]
  · have hWalk := path_walk s t
    rw [h] at hWalk
    rcases hPath.total_of_right_unique s.leads_rightUnique hWalk with hOn | hBack
    · exact absurd hOn (not_path_of_walk hEnd hv)
    · rw [← eq_of_path_of_not_isVar hv hBack] at hv
      cases hv

/-! ### Unification with constants -/

theorem reach_ne_zero (s : Substitution) (t u : Term) : s.reach t u ≠ 0 := by
  simp [reach]

/-- A term that stands for a variable can be any constant. -/
theorem unify_atom (h : s.walk t = .var x) (hu : u.isAtom = true) :
    s.unify t u = some (s.push x u) := by
  obtain ⟨d, hd⟩ := Nat.exists_eq_succ_of_ne_zero (s.reach_ne_zero t u)
  have hWalk : s.walk u = u := walk_of_not_isVar (Term.isVar_of_isAtom hu)
  rw [unify, hd]
  cases u with
  | var | record | list => cases hu
  | _ => simp [unifyWithin, h, hWalk, extend, occurs, Attempt.ofOption, Attempt.toOption]

/-- Terms that stand for constants unify if the constants are equal. -/
theorem unify_atoms {v w : Term} (ht : s.walk t = v) (hu : s.walk u = w) (hv : v.isAtom = true)
    (hw : w.isAtom = true) : s.unify t u = if v = w then some s else none := by
  obtain ⟨d, hd⟩ := Nat.exists_eq_succ_of_ne_zero (s.reach_ne_zero t u)
  rw [unify, hd]
  have hAttempt : s.unifyWithin d.succ t u = if v = w then .unified s else .clash := by
    cases v with
    | var | record | list => cases hv
    | _ =>
        cases w with
        | var | record | list => cases hw
        | _ => simp [unifyWithin, ht, hu]
  rw [hAttempt]
  split <;> rfl

/-! ### Unification with terms that hold no variables -/

/-- A step of unification keeps what terms stand for, if its second term holds no variables. -/
def KeepsConstants (step : Substitution → Term → Term → Attempt) : Prop :=
  ∀ s t u s', u.vars = [] → step s t u = .unified s' →
    ∀ e v, s.walk e = v → v.isVar = false → s'.walk e = v

theorem KeepsConstants.unifyAll {step : Substitution → Term → Term → Attempt}
    (h : KeepsConstants step) {s s' : Substitution} {ts us : List Term}
    (hUs : Term.varsAll us = []) (hUnified : unifyAll step s ts us = .unified s') {e v : Term}
    (hWalk : s.walk e = v) (hv : v.isVar = false) : s'.walk e = v := by
  induction ts generalizing s us with
  | nil =>
      cases us with
      | nil =>
          obtain rfl := Attempt.unified.inj hUnified
          exact hWalk
      | cons u us => cases hUnified
  | cons t ts ih =>
      cases us with
      | nil => cases hUnified
      | cons u us =>
          rw [Term.varsAll, List.append_eq_nil_iff] at hUs
          rw [Substitution.unifyAll] at hUnified
          cases hHead : step s t u with
          | unified s₁ =>
              rw [hHead] at hUnified
              exact ih hUs.2 hUnified (h s t u s₁ hUs.1 hHead e v hWalk hv)
          | clash | tooDeep =>
              rw [hHead] at hUnified
              cases hUnified

theorem KeepsConstants.unifyFields {step : Substitution → Term → Term → Attempt}
    (h : KeepsConstants step) {s s' : Substitution} {fs gs : List (String × Term)}
    (hGs : Term.varsFields gs = []) (hUnified : unifyFields step s fs gs = .unified s') {e v : Term}
    (hWalk : s.walk e = v) (hv : v.isVar = false) : s'.walk e = v := by
  induction fs generalizing s gs with
  | nil =>
      cases gs with
      | nil =>
          obtain rfl := Attempt.unified.inj hUnified
          exact hWalk
      | cons g gs => cases hUnified
  | cons f fs ih =>
      cases gs with
      | nil => cases hUnified
      | cons g gs =>
          obtain ⟨k, t⟩ := f
          obtain ⟨l, u⟩ := g
          rw [Term.varsFields, List.append_eq_nil_iff] at hGs
          rw [Substitution.unifyFields] at hUnified
          split at hUnified
          · cases hHead : step s t u with
            | unified s₁ =>
                rw [hHead] at hUnified
                exact ih hGs.2 hUnified (h s t u s₁ hGs.1 hHead e v hWalk hv)
            | clash | tooDeep =>
                rw [hHead] at hUnified
                cases hUnified
          · cases hUnified

theorem keepsConstants_unifyWithin (depth : Nat) : KeepsConstants (unifyWithin depth) := by
  induction depth with
  | zero =>
      intro s t u s' _ h
      cases h
  | succ depth ih =>
      intro s t u s' hu h e v hWalk hv
      have huVar : u.isVar = false := by
        cases u <;> first | rfl | cases hu
      rw [unifyWithin, walk_of_not_isVar huVar] at h
      split at h
      · cases huVar
      · next x u hx _ =>
        unfold extend at h
        split at h
        · cases h
        · obtain rfl := Attempt.unified.inj h
          exact walk_push_constant hx huVar hWalk hv
      · cases huVar
      · rw [Term.vars] at hu
        exact ih.unifyFields hu h hWalk hv
      · rw [Term.vars] at hu
        exact ih.unifyAll hu h hWalk hv
      · split at h
        · obtain rfl := Attempt.unified.inj h
          exact hWalk
        · cases h

/-- Unifying with a term without variables leaves what is known as it is. -/
theorem walk_unify_constant {s' : Substitution} (hu : u.vars = []) (h : s.unify t u = some s')
    {e v : Term} (hWalk : s.walk e = v) (hv : v.isVar = false) : s'.walk e = v := by
  rw [unify] at h
  cases hAttempt : unifyWithin (s.reach t u) s t u with
  | unified s₁ =>
      rw [hAttempt] at h
      obtain rfl := Option.some.inj h
      exact keepsConstants_unifyWithin _ s t u s₁ hu hAttempt e v hWalk hv
  | clash | tooDeep =>
      rw [hAttempt] at h
      cases h

end Substitution

end PageLogic
