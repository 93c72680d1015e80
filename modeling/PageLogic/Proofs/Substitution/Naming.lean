import PageLogic.Proofs.Substitution.Circles
/-!
Naming what is left of a term. The run that names variables one after another keeps a substitution
in which the variables that it has seen are bound to the numbers of their first occurrences.
Resolving a term in it therefore numbers the term, which is what `reify` gives.
-/
namespace PageLogic.Substitution

open Filter

variable {s names : Substitution} {seen : List Var} {x : Var}

/-- The variables that have been seen, and no others, are bound, each to the place of its first
occurrence. -/
structure NamedBy (names : Substitution) (seen : List Var) : Prop where
  lookup_eq : ∀ x, names.lookup x =
    if x ∈ seen then some (.placeholder (seen.eraseDups.idxOf x)) else none
  length_eq : names.length = seen.eraseDups.length

theorem namedBy_empty : empty.NamedBy [] :=
  ⟨fun x => by simp, rfl⟩

theorem eraseDups_concat_of_mem (hx : x ∈ seen) : (seen ++ [x]).eraseDups = seen.eraseDups := by
  simp [List.eraseDups_append, List.removeAll, hx]

theorem eraseDups_concat_of_notMem (hx : x ∉ seen) :
    (seen ++ [x]).eraseDups = seen.eraseDups ++ [x] := by
  simp [List.eraseDups_append, List.removeAll, hx, List.eraseDups_cons]

namespace NamedBy

theorem lookup_of_mem (h : names.NamedBy seen) (hx : x ∈ seen) :
    names.lookup x = some (.placeholder (seen.eraseDups.idxOf x)) := by
  rw [h.lookup_eq, if_pos hx]

theorem lookup_of_notMem (h : names.NamedBy seen) (hx : x ∉ seen) : names.lookup x = none := by
  rw [h.lookup_eq, if_neg hx]

/-- A variable that has been seen keeps its number. -/
theorem again (h : names.NamedBy seen) (hx : x ∈ seen) : names.NamedBy (seen ++ [x]) := by
  refine ⟨fun y => ?_, ?_⟩
  · rw [h.lookup_eq, eraseDups_concat_of_mem hx]
    have hMem : y ∈ seen ++ [x] ↔ y ∈ seen := by
      simp only [List.mem_append, List.mem_singleton, or_iff_left_iff_imp]
      rintro rfl
      exact hx
    simp only [hMem]
  · rw [h.length_eq, eraseDups_concat_of_mem hx]

/-- A new variable takes the next number. -/
theorem next (h : names.NamedBy seen) (hx : x ∉ seen) :
    (names.push x (.placeholder names.length)).NamedBy (seen ++ [x]) := by
  have hOld (y : Var) (hy : y ∈ seen) : y ≠ x := by
    rintro rfl
    exact hx hy
  refine ⟨fun y => ?_, ?_⟩
  · rw [lookup_push, eraseDups_concat_of_notMem hx, List.idxOf_append, h.lookup_eq, h.length_eq]
    by_cases hyx : y = x
    · subst hyx
      simp [hx]
    · by_cases hy : y ∈ seen
      · simp [hyx, hy]
      · simp [hyx, hy]
  · rw [length_push, eraseDups_concat_of_notMem hx, List.length_append, h.length_eq,
      List.length_singleton]

/-- Names are no variables, so that nothing leads on from them. -/
theorem acyclic (h : names.NamedBy seen) : names.Acyclic := by
  refine ⟨fun _ => 0, fun x t hx => ?_⟩
  by_cases hMem : x ∈ seen
  · rw [h.lookup_of_mem hMem, Option.some.injEq] at hx
    subst hx
    simp [Term.vars]
  · rw [h.lookup_of_notMem hMem] at hx
    cases hx

/-- Putting its names into a term numbers the term. -/
theorem resolve_eq_numbered {t : Term} (h : names.NamedBy t.vars) :
    names.resolve t = t.numbered := by
  rw [resolve_eq_replace, Term.numbered]
  apply Term.replace_congr
  intro x hx
  rw [h.acyclic.resolve_bound (h.lookup_of_mem hx)]
  simp [resolve]

/-- Naming one variable. -/
theorem nameVars?_var (h : names.NamedBy seen) (x : Var) :
    ∃ named, named.NamedBy (seen ++ [x]) ∧
      ∀ᶠ n in atTop, nameVars? n names (.var x) = some named := by
  by_cases hx : x ∈ seen
  · refine ⟨names, h.again hx, ?_⟩
    rw [← eventually_succ_iff]
    filter_upwards [h.acyclic.walk?_ends (.var x)] with n hWalk
    rw [h.acyclic.walk_bound (h.lookup_of_mem hx), walk_of_not_isVar rfl] at hWalk
    simp [nameVars?, hWalk]
  · refine ⟨_, h.next hx, ?_⟩
    have hExtend : names.extend x (.placeholder names.length) =
        some (names.push x (.placeholder names.length)) :=
      extend_eq_some_iff.mpr ⟨by simp [occurs], rfl⟩
    rw [← eventually_succ_iff]
    filter_upwards [h.acyclic.walk?_ends (.var x),
      h.acyclic.extend?_ends x (.placeholder names.length)] with n hWalk hn
    rw [walk_of_unbound (h.lookup_of_notMem hx)] at hWalk
    rw [hExtend, Attempt.ofOption] at hn
    simp [nameVars?, hWalk, hn]

/-- Naming one part of a term after another. -/
theorem nameVars?_foldlM {α : Type} (part : α → Term) {parts : List α}
    (hParts : ∀ a ∈ parts, ∀ {names : Substitution} {seen : List Var}, names.NamedBy seen →
      ∃ named, named.NamedBy (seen ++ (part a).vars) ∧
        ∀ᶠ n in atTop, nameVars? n names (part a) = some named)
    (h : names.NamedBy seen) :
    ∃ named, named.NamedBy (seen ++ parts.flatMap fun a => (part a).vars) ∧
      ∀ᶠ n in atTop, parts.foldlM (fun names a => nameVars? n names (part a)) names =
        some named := by
  induction parts generalizing names seen with
  | nil => exact ⟨names, by simpa using h, Eventually.of_forall fun n => rfl⟩
  | cons a parts ih =>
      obtain ⟨ha, hRest⟩ := List.forall_mem_cons.mp hParts
      obtain ⟨first, hFirst, hHead⟩ := ha h
      obtain ⟨last, hLast, hTail⟩ := ih hRest hFirst
      refine ⟨last, by simpa [List.append_assoc] using hLast, ?_⟩
      filter_upwards [hHead, hTail] with n hn hm
      simp [List.foldlM_cons, hn, hm]

/-- Naming the variables of a term, whatever has been seen before. -/
theorem nameVars?_ends (t : Term) (h : names.NamedBy seen) :
    ∃ named, named.NamedBy (seen ++ t.vars) ∧
      ∀ᶠ n in atTop, nameVars? n names t = some named := by
  induction t generalizing names seen with
  | var x => exact h.nameVars?_var x
  | record fields ih =>
      obtain ⟨named, hNamed, hEnds⟩ := h.nameVars?_foldlM Prod.snd fun f hf _ _ => ih f hf
      refine ⟨named, by simpa using hNamed, ?_⟩
      rw [← eventually_succ_iff]
      filter_upwards [names.walk?_ends_of_not_isVar (.record fields) rfl, hEnds] with n hWalk hn
      simp [nameVars?, hWalk, hn]
  | list items ih =>
      obtain ⟨named, hNamed, hEnds⟩ := h.nameVars?_foldlM id fun t ht _ _ => ih t ht
      refine ⟨named, by simpa using hNamed, ?_⟩
      rw [← eventually_succ_iff]
      filter_upwards [names.walk?_ends_of_not_isVar (.list items) rfl, hEnds] with n hWalk hn
      simpa [nameVars?, hWalk] using hn
  | _ =>
      refine ⟨names, by simpa [Term.vars] using h, ?_⟩
      rw [← eventually_succ_iff, ← eventually_succ_iff]
      exact Eventually.of_forall fun n => by simp [nameVars?, walk?]

end NamedBy

/-- Reading an answer off an acyclic substitution ends, with the numbered term. -/
theorem Acyclic.reify?_ends (h : s.Acyclic) (t : Term) :
    ∀ᶠ n in atTop, s.reify? n t = some (s.reify t) := by
  obtain ⟨named, hNamed, hNames⟩ := namedBy_empty.nameVars?_ends (s.resolve t)
  rw [List.nil_append] at hNamed
  filter_upwards [h.resolve?_ends t, hNames, hNamed.acyclic.resolve?_ends (s.resolve t)]
    with n hResolve hName hPut
  simp [reify?, hResolve, hName, hPut, hNamed.resolve_eq_numbered, reify]

end PageLogic.Substitution
