import PageLogic.Proofs.Substitution.Naming
import PageLogic.Proofs.Substitution.Walk
import Mathlib.Data.Set.Card
/-!
Substitutions that unification reaches from the empty one. Each variable is bound in them at most
once and none reaches itself through its bindings, so that every run that follows bindings step by
step comes to its end, unification included.
-/
namespace PageLogic.Substitution

open Filter

variable {s r : Substitution} {t u : Term}

/-- No variable is bound twice. -/
def BindsOnce (s : Substitution) : Prop :=
  (s.bindings.map (·.1)).Nodup

/-- What unifications that succeed make of the empty substitution. -/
inductive Reachable : Substitution → Prop where
  | empty : Reachable empty
  | unify {s r : Substitution} {t u : Term} (prior : Reachable s) (h : s.unify t u = some r) :
      Reachable r

/-! ### Binding once -/

theorem lookup_eq_none_iff {x : Var} : s.lookup x = none ↔ x ∉ s.bindings.map (·.1) := by
  simp only [lookup, List.lookup_eq_none_iff, List.mem_map]
  grind

theorem Grows.bindsOnce {P : Term → Prop} (h : s.Grows P r) (hs : s.BindsOnce) : r.BindsOnce := by
  induction h with
  | refl => exact hs
  | push _ hx _ _ _ ih => exact List.nodup_cons.mpr ⟨lookup_eq_none_iff.mp hx, ih⟩

/-- The length is the number of bound variables. -/
theorem BindsOnce.length_eq (h : s.BindsOnce) :
    s.length = {x | ∃ t, s.lookup x = some t}.ncard := by
  have hKeys : {x | ∃ t, s.lookup x = some t} = ((s.bindings.map (·.1)).toFinset : Set Var) := by
    ext x
    simp only [Set.mem_ofPred_eq, ← Option.isSome_iff_exists, ← Option.ne_none_iff_isSome, ne_eq,
      lookup_eq_none_iff, not_not, List.mem_toFinset, Finset.mem_coe]
  rw [hKeys, Set.ncard_coe_finset, List.toFinset_card_of_nodup h, List.length_map]
  rfl

/-! ### Runs of unification -/

theorem hereditary_anything : Term.Hereditary fun _ => True :=
  fun _ _ _ _ => trivial

theorem Acyclic.unify_grows (hs : s.Acyclic) (h : s.unify t u = some r) :
    s.Grows (fun _ => True) r ∧ ∀ v, r.Admits v ↔ s.Admits v ∧ t.replace v = u.replace v :=
  hs.unify_eq_some hereditary_anything (fun _ _ => ⟨trivial, trivial⟩) trivial trivial h

theorem Acyclic.acyclic_of_unifyWithin {d : Nat} (hs : s.Acyclic)
    (h : unifyWithin d s t u = .unified r) : r.Acyclic := by
  have hMeets := unifyWithin_meets (t := t) (u := u) hereditary_anything d hs
    (fun _ _ => ⟨trivial, trivial⟩) trivial trivial
  rw [h] at hMeets
  exact hMeets.1.acyclic hs

/-- Where what follows can only clash, the whole can. -/
theorem Attempt.andThen_eq_clash {a : Attempt} {next : Substitution → Attempt}
    (hNext : ∀ r, next r ≠ .tooDeep → next r = .clash) (h : a.andThen next ≠ .tooDeep) :
    a.andThen next = .clash := by
  cases a with
  | unified r => exact hNext r h
  | clash => rfl
  | tooDeep => exact absurd rfl h

/-- Lists of different length clash in the end, if not before. -/
theorem unifyAll_of_length_ne {step : Substitution → Term → Term → Attempt} {ts us : List Term}
    (hLength : ts.length ≠ us.length) (h : unifyAll step s ts us ≠ .tooDeep) :
    unifyAll step s ts us = .clash := by
  induction ts generalizing s us with
  | nil =>
      cases us with
      | nil => exact absurd rfl hLength
      | cons u us => rfl
  | cons t ts ih =>
      cases us with
      | nil => rfl
      | cons u us =>
          rw [unifyAll] at h ⊢
          exact Attempt.andThen_eq_clash (fun r => ih (by simpa using hLength)) h

/-- So do records with different numbers of fields. -/
theorem unifyFields_of_length_ne {step : Substitution → Term → Term → Attempt}
    {fs gs : List (String × Term)} (hLength : fs.length ≠ gs.length)
    (h : unifyFields step s fs gs ≠ .tooDeep) : unifyFields step s fs gs = .clash := by
  induction fs generalizing s gs with
  | nil =>
      cases gs with
      | nil => exact absurd rfl hLength
      | cons g gs => rfl
  | cons f fs ih =>
      cases gs with
      | nil => rfl
      | cons g gs =>
          rw [unifyFields] at h ⊢
          split
          · next hName =>
              rw [if_pos hName] at h
              exact Attempt.andThen_eq_clash (fun r => ih (by simpa using hLength)) h
          · rfl

/-- The run comes to what the step comes to, wherever the step is deep enough. -/
def Approaches (run : Nat → Substitution → Term → Term → Attempt)
    (step : Substitution → Term → Term → Attempt) : Prop :=
  ∀ s t u, s.Acyclic → step s t u ≠ .tooDeep →
    (∀ᶠ n in atTop, run n s t u = step s t u) ∧ ∀ r, step s t u = .unified r → r.Acyclic

section

variable {run : Nat → Substitution → Term → Term → Attempt}
  {step : Substitution → Term → Term → Attempt}

/-- A first attempt and what follows it come to their ends together. -/
theorem Approaches.andThen (h : Approaches run step) (hs : s.Acyclic)
    {next : Substitution → Attempt} {more : Nat → Substitution → Attempt}
    (hNext : ∀ r, r.Acyclic → next r ≠ .tooDeep → ∀ᶠ n in atTop, more n r = next r)
    (hDeep : (step s t u).andThen next ≠ .tooDeep) :
    ∀ᶠ n in atTop, (run n s t u).andThen (more n) = (step s t u).andThen next := by
  cases hHead : step s t u with
  | unified r =>
      obtain ⟨hRun, hAcyclic⟩ := h s t u hs (by simp [hHead])
      rw [hHead] at hDeep
      filter_upwards [hRun, hNext r (hAcyclic r hHead) hDeep] with n hn hm
      rw [hn, hHead]
      exact hm
  | clash =>
      filter_upwards [(h s t u hs (by simp [hHead])).1] with n hn
      rw [hn, hHead]
      rfl
  | tooDeep =>
      rw [hHead] at hDeep
      exact absurd rfl hDeep

theorem Approaches.unifyAll (h : Approaches run step) (hs : s.Acyclic) {ts us : List Term}
    (hDeep : unifyAll step s ts us ≠ .tooDeep) :
    ∀ᶠ n in atTop, unifyAll (run n) s ts us = unifyAll step s ts us := by
  induction ts generalizing s us with
  | nil => cases us <;> exact Eventually.of_forall fun n => rfl
  | cons t ts ih =>
      cases us with
      | nil => exact Eventually.of_forall fun n => rfl
      | cons u us => exact h.andThen hs (fun r hr hRest => ih hr hRest) hDeep

theorem Approaches.unifyFields (h : Approaches run step) (hs : s.Acyclic)
    {fs gs : List (String × Term)} (hDeep : unifyFields step s fs gs ≠ .tooDeep) :
    ∀ᶠ n in atTop, unifyFields (run n) s fs gs = unifyFields step s fs gs := by
  induction fs generalizing s gs with
  | nil => cases gs <;> exact Eventually.of_forall fun n => rfl
  | cons f fs ih =>
      cases gs with
      | nil => exact Eventually.of_forall fun n => rfl
      | cons g gs =>
          simp only [Substitution.unifyFields] at hDeep ⊢
          split
          · next hName =>
              rw [if_pos hName] at hDeep
              exact h.andThen hs (fun r hr hRest => ih hr hRest) hDeep
          · exact Eventually.of_forall fun n => rfl

end

/-- Runs of unification approach every attempt that is deep enough. -/
theorem approaches_unifyWithin (d : Nat) : Approaches unify? (unifyWithin d) := by
  induction d with
  | zero => exact fun s t u _ h => absurd rfl h
  | succ d ih =>
      intro s t u hs hDeep
      refine ⟨?_, fun r hr => hs.acyclic_of_unifyWithin hr⟩
      rw [← eventually_succ_iff]
      have hT := hs.walk?_ends t
      have hU := hs.walk?_ends u
      unfold unifyWithin at hDeep ⊢
      split
      case h_1 x y hx hy =>
        filter_upwards [hT, hU, hs.extend?_ends x (.var y)] with n hT hU hExtend
        simp only [unify?, hT, hU, hx, hy, hExtend]
      case h_2 x hx hNot =>
        filter_upwards [hT, hU, hs.extend?_ends x (s.walk u)] with n hT hU hExtend
        cases hHead : s.walk u with
        | var y => exact absurd hHead (hNot y)
        | _ =>
            rw [hHead] at hExtend
            simp only [unify?, hT, hU, hx, hHead, hExtend]
      case h_3 y hy hNot =>
        filter_upwards [hT, hU, hs.extend?_ends y (s.walk t)] with n hT hU hExtend
        cases hHead : s.walk t with
        | var x => exact absurd hHead (hNot x)
        | _ =>
            rw [hHead] at hExtend
            simp only [unify?, hT, hU, hy, hHead, hExtend]
      case h_4 fs gs hfs hgs =>
        simp only [hfs, hgs] at hDeep
        filter_upwards [hT, hU, ih.unifyFields hs hDeep] with n hT hU hFields
        simp only [unify?, hT, hU, hfs, hgs, hFields]
        split
        · rfl
        · next hLength => exact (unifyFields_of_length_ne hLength hDeep).symm
      case h_5 ts us hts hus =>
        simp only [hts, hus] at hDeep
        filter_upwards [hT, hU, ih.unifyAll hs hDeep] with n hT hU hAll
        simp only [unify?, hT, hU, hts, hus, hAll]
        split
        · rfl
        · next hLength => exact (unifyAll_of_length_ne hLength hDeep).symm
      case h_6 hNotVar hNotVarU hNotRecords hNotLists =>
        filter_upwards [hT, hU] with n hT hU
        simp only [unify?, hT, hU]

/-- A run of unification comes to its end as well. -/
theorem Acyclic.unify?_ends (hs : s.Acyclic) (t u : Term) :
    ∀ᶠ n in atTop, unify? n s t u = .ofOption (s.unify t u) := by
  have hDeep := hs.unifyWithin_ne_tooDeep t u
  filter_upwards [(approaches_unifyWithin _ s t u hs hDeep).1] with n hn
  rw [hn, unify]
  cases hAttempt : unifyWithin (s.reach t u) s t u with
  | tooDeep => exact absurd hAttempt hDeep
  | _ => rfl

/-! ### What unification reaches -/

namespace Reachable

theorem acyclic (h : s.Reachable) : s.Acyclic := by
  induction h with
  | empty => exact Acyclic.empty
  | unify _ hUnify ih => exact (ih.unify_grows hUnify).1.acyclic ih

theorem bindsOnce (h : s.Reachable) : s.BindsOnce := by
  induction h with
  | empty => exact List.nodup_nil
  | unify prior hUnify ih => exact (prior.acyclic.unify_grows hUnify).1.bindsOnce ih

end Reachable

/-- On what unification reaches, no variable is bound twice and none reaches itself through its
bindings, and following bindings comes to an end everywhere: from some limit on, every run has ended
with what the guarded function gives. -/
theorem reachable_runs_end (hs : s.Reachable) :
    s.BindsOnce ∧ s.length = {x | ∃ t, s.lookup x = some t}.ncard ∧ s.FreeOfCircles ∧
      ∀ t, (∀ᶠ n in atTop, s.walk? n t = some (s.walk t)) ∧
        (∀ᶠ n in atTop, s.resolve? n t = some (s.resolve t)) ∧
        (∀ x, ∀ᶠ n in atTop, s.occurs? x n t = some (s.occurs x t)) ∧
        (∀ u, ∀ᶠ n in atTop, unify? n s t u = .ofOption (s.unify t u)) ∧
        ∀ᶠ n in atTop, s.reify? n t = some (s.reify t) := by
  have hAcyclic := hs.acyclic
  refine ⟨hs.bindsOnce, hs.bindsOnce.length_eq, hAcyclic.freeOfCircles, fun t => ?_⟩
  exact ⟨hAcyclic.walk?_ends t, hAcyclic.resolve?_ends t, fun x => hAcyclic.occurs?_ends x t,
    hAcyclic.unify?_ends t, hAcyclic.reify?_ends t⟩

/-- Two variables are bound to constants, and a run of resolving finds both. -/
theorem reachable_runs_end_order :
    let s := (empty.push ⟨0⟩ (.str "corn")).push ⟨1⟩ (.int 5)
    let order : Term := .list [.var ⟨2⟩, .var ⟨1⟩, .var ⟨0⟩]
    s.Reachable ∧ {x | ∃ t, s.lookup x = some t}.ncard = 2 ∧
      ∃ n, s.resolve? n order = some (.list [.var ⟨2⟩, .int 5, .str "corn"]) := by
  intro s order
  have hFirst : (empty.push ⟨0⟩ (.str "corn")).Reachable :=
    Reachable.empty.unify (unify_atom (walk_of_unbound (lookup_empty ⟨0⟩)) rfl)
  have hSecond : s.Reachable :=
    hFirst.unify (unify_atom (walk_of_unbound (x := ⟨1⟩) (by simp [lookup_push])) rfl)
  obtain ⟨_, hLength, _, hRuns⟩ := reachable_runs_end hSecond
  obtain ⟨n, hn⟩ := (hRuns order).2.1.exists
  have hText : s.lookup ⟨0⟩ = some (.str "corn") := by simp [s, lookup_push]
  have hNumber : s.lookup ⟨1⟩ = some (.int 5) := by simp [s, lookup_push]
  have hUnbound : s.lookup ⟨2⟩ = none := by simp [s, lookup_push]
  refine ⟨hSecond, hLength.symm, n, ?_⟩
  rw [hn]
  simp [order, resolve_of_lookup hText, resolve_of_lookup hNumber, resolve_of_unbound hUnbound,
    resolve]

end PageLogic.Substitution
