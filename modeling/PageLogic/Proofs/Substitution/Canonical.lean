import PageLogic.Proofs.Substitution.Naming
import PageLogic.Proofs.Substitution.Renaming
import Mathlib.SetTheory.Cardinal.Arithmetic
/-!
Answers are written in one way only. A numbered term shows a term up to a permutation of its variables,
and no more than that: the numbers tell where a variable stands again, but not which one it is.
-/
namespace PageLogic

namespace Term

theorem length_eraseDups {α : Type} [DecidableEq α] (l : List α) :
    l.eraseDups.length = l.toFinset.card := by
  rw [← List.toFinset_card_of_nodup (nodup_eraseDups l)]
  congr 1
  ext a
  simp [List.mem_eraseDups]

/-- Terms that are numbered alike differ in their variables only, and where one has the same variable twice
so has the other. -/
theorem exists_rename_of_numbered_eq {t u : Term} (ht : t.Whole) (hu : u.Whole)
    (h : t.numbered = u.numbered) :
    ∃ g : Var → Var, Set.InjOn g {x | x ∈ t.vars} ∧ u = t.rename g := by
  have hLength : t.vars.eraseDups.length = u.vars.eraseDups.length := by
    have hRange := congrArg (fun t => t.placeholders.eraseDups.length) h
    simpa [eraseDups_placeholders_numbered, ht, hu] using hRange
  -- The variable that has a number in the one term goes to the variable that has it in the other.
  let other (n : Nat) : Var := (u.vars.eraseDups[n]?).getD ⟨0⟩
  have hLt {x : Var} (hx : x ∈ t.vars) : t.vars.eraseDups.idxOf x < u.vars.eraseDups.length :=
    hLength ▸ List.idxOf_lt_length_of_mem (List.mem_eraseDups.mpr hx)
  have hOther {x : Var} (hx : x ∈ t.vars) :
      u.vars.eraseDups[t.vars.eraseDups.idxOf x]? = some (other (t.vars.eraseDups.idxOf x)) := by
    simp [other, hLt hx]
  refine ⟨fun x => other (t.vars.eraseDups.idxOf x), fun x hx y hy hEq => ?_, ?_⟩
  · have hSame : u.vars.eraseDups[t.vars.eraseDups.idxOf x]? =
        u.vars.eraseDups[t.vars.eraseDups.idxOf y]? := by
      rw [hOther hx, hOther hy]
      exact congrArg some hEq
    exact idxOf_eraseDups_injOn t.vars hx hy
      ((List.getElem?_inj (hLt hx) (nodup_eraseDups u.vars)).mp hSame)
  · calc u = u.numbered.fill fun n => .var (other n) := by
          rw [fill_numbered hu]
          conv_lhs => rw [← replace_self u]
          refine replace_congr fun x hx => ?_
          have hLt := List.idxOf_lt_length_of_mem (List.mem_eraseDups.mpr hx)
          simp [other, hLt]
      _ = t.rename fun x => other (t.vars.eraseDups.idxOf x) := by
          rw [← h, fill_numbered ht]
          rfl

end Term

/-- A renaming of finitely many variables that keeps them apart is part of a permutation of all. -/
theorem exists_perm_of_injOn {g : Var → Var} {xs : List Var} (hg : Set.InjOn g {x | x ∈ xs}) :
    ∃ f : Equiv.Perm Var, ∀ x ∈ xs, f x = g x := by
  have : Infinite Var := Infinite.of_injective Var.mk fun _ _ h => congrArg Var.id h
  have : Finite {x | x ∈ xs} := xs.finite_toSet
  have hFew : Cardinal.mk {x | x ∈ xs} < Cardinal.mk Var :=
    (Cardinal.lt_aleph0_of_finite _).trans_le (Cardinal.aleph0_le_mk Var)
  obtain ⟨f, hf⟩ := Cardinal.extend_function_of_lt ⟨_, hg.injective⟩ hFew ⟨Equiv.refl Var⟩
  exact ⟨f, fun x hx => hf ⟨x, hx⟩⟩

theorem Term.numbered_eq_iff_rename {t u : Term} (ht : t.Whole) (hu : u.Whole) :
    t.numbered = u.numbered ↔ ∃ f : Equiv.Perm Var, u = t.rename f := by
  constructor
  · intro h
    obtain ⟨g, hg, rfl⟩ := Term.exists_rename_of_numbered_eq ht hu h
    obtain ⟨f, hf⟩ := exists_perm_of_injOn hg
    exact ⟨f, (Term.rename_congr hf).symm⟩
  · rintro ⟨f, rfl⟩
    exact (Term.numbered_rename_of_injective f.injective t).symm

namespace Substitution

open Filter

variable {s : Substitution} {t : Term} {x : Var}

/-- Only unbound variables are left of a term that is resolved. -/
theorem Acyclic.lookup_of_mem_resolve (hs : s.Acyclic) (hx : x ∈ (s.resolve t).vars) :
    s.lookup x = none := by
  induction t using hs.induct with
  | bound y t hy ih =>
      rw [hs.resolve_bound hy] at hx
      exact ih hx
  | unbound y hy =>
      rw [resolve_of_unbound hy, Term.vars_var, List.mem_singleton] at hx
      exact hx ▸ hy
  | record fields ih =>
      simp only [resolve_record, Term.vars_record, List.flatMap_map, List.mem_flatMap] at hx
      obtain ⟨f, hf, hx⟩ := hx
      exact ih f hf hx
  | list items ih =>
      simp only [resolve_list, Term.vars_list, List.flatMap_map, List.mem_flatMap] at hx
      obtain ⟨u, hu, hx⟩ := hx
      exact ih u hu hx
  | _ => simp [resolve, Term.vars] at hx

/-- Answers are named canonically. What is left of a term when it is resolved has unbound variables only. In
the answer each of them is replaced by a number of its own, and the numbers that stand there from left to
right are 0, 1, 2, … in the order in which they first occur, as many as there are variables. Two terms have
the same answer exactly if what is left of one is what is left of the other after a permutation of the
variables. -/
theorem reify_canonical (hs : s.FreeOfCircles) :
    (∀ t, (s.resolve t).Whole →
      let left := s.resolve t
      let answer := s.reify t
      (∀ᶠ n in atTop, s.resolve? n t = some left ∧ s.reify? n t = some answer) ∧
      (∀ x ∈ left.vars, s.lookup x = none) ∧
      answer.vars = [] ∧
      (∃ number : Var → Nat, Set.InjOn number {x | x ∈ left.vars} ∧
        answer = left.replace (fun x => .placeholder (number x)) ∧
        answer.placeholders = left.vars.map number) ∧
      answer.placeholders.eraseDups = List.range left.vars.toFinset.card) ∧
    ∀ t₁ t₂, (s.resolve t₁).Whole → (s.resolve t₂).Whole →
      (s.reify t₁ = s.reify t₂ ↔ ∃ f : Equiv.Perm Var, s.resolve t₂ = (s.resolve t₁).rename f) := by
  refine ⟨fun t ht => ?_, fun t₁ t₂ h₁ h₂ => Term.numbered_eq_iff_rename h₁ h₂⟩
  intro left answer
  have hAcyclic := hs.acyclic
  refine ⟨(hAcyclic.resolve?_ends t).and (hAcyclic.reify?_ends t),
    fun x hx => hAcyclic.lookup_of_mem_resolve hx, left.vars_numbered,
    ⟨_, Term.idxOf_eraseDups_injOn left.vars, rfl, Term.placeholders_replace ht _⟩, ?_⟩
  rw [← Term.length_eraseDups]
  exact Term.eraseDups_placeholders_numbered ht

/-- Two variables are left of a list, one of them twice and once through a binding; the answer is that of a
list of two other variables. -/
theorem reify_canonical_list :
    let s := empty.push ⟨0⟩ (.var ⟨1⟩)
    let t₁ : Term := .list [.var ⟨0⟩, .var ⟨2⟩, .var ⟨1⟩]
    let t₂ : Term := .list [.var ⟨5⟩, .var ⟨4⟩, .var ⟨5⟩]
    s.FreeOfCircles ∧ (s.resolve t₁).Whole ∧ (s.resolve t₂).Whole ∧
      (s.reify t₁).placeholders.eraseDups = List.range 2 ∧ s.reify t₁ = s.reify t₂ := by
  intro s t₁ t₂
  have hFree : s.FreeOfCircles :=
    (Acyclic.empty.push (lookup_empty _) (by rw [occurs_of_unbound (lookup_empty _)]; decide)).freeOfCircles
  have hBound : s.lookup ⟨0⟩ = some (.var ⟨1⟩) := by simp [s, lookup_push]
  have hUnbound (n : Nat) (hn : n ≠ 0) : s.resolve (.var ⟨n⟩) = .var ⟨n⟩ :=
    resolve_of_unbound (by simp [s, lookup_push, hn])
  have hLeft₁ : s.resolve t₁ = .list [.var ⟨1⟩, .var ⟨2⟩, .var ⟨1⟩] := by
    simp [t₁, hFree.acyclic.resolve_bound hBound, hUnbound]
  have hLeft₂ : s.resolve t₂ = t₂ := by
    simp [t₂, hUnbound]
  have hWhole₁ : (s.resolve t₁).Whole := by
    rw [hLeft₁]
    simp [Term.Whole]
  have hWhole₂ : (s.resolve t₂).Whole := by
    rw [hLeft₂]
    simp [t₂, Term.Whole]
  obtain ⟨hNamed, hSame⟩ := reify_canonical hFree
  obtain ⟨_, _, _, _, hOrder⟩ := hNamed t₁ hWhole₁
  refine ⟨hFree, hWhole₁, hWhole₂, ?_, (hSame t₁ t₂ hWhole₁ hWhole₂).mpr ?_⟩
  · rw [hOrder, hLeft₁]
    rfl
  · refine ⟨(Equiv.swap ⟨1⟩ ⟨5⟩).trans (Equiv.swap ⟨2⟩ ⟨4⟩), ?_⟩
    rw [hLeft₁, hLeft₂]
    decide

end Substitution

end PageLogic
