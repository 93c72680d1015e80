import PageLogic.Proofs.Formula.Meaning
/-!
Pure formulas: no relations, and terms without placeholders. Their runs never fail, and answer with
the ground terms that satisfy the formula, no more and no fewer.
-/
namespace PageLogic

variable {F : Facts} {S : Var → Prop} {g : Formula} {v : Valuation}

/-- Formulas without relations. -/
def Fragment.pure : Fragment where
  unary _ := False
  binary _ := False
  constant t := ∀ n, t ≠ .placeholder n

namespace Formula

/-- The names have ground values with which the formula holds. Equations are about finite terms,
`conj` means and, `disj` means or, and `fresh` means that there is a ground value. -/
inductive Satisfied : Formula → Valuation → Prop where
  | succeed {v : Valuation} : Satisfied .succeed v
  | eq {t u : Term} {v : Valuation} (h : t.replace v = u.replace v) : Satisfied (.eq t u) v
  | conj {g h : Formula} {v : Valuation} (hg : Satisfied g v) (hh : Satisfied h v) :
      Satisfied (.conj g h) v
  | disj_left {g h : Formula} {v : Valuation} (hg : Satisfied g v) : Satisfied (.disj g h) v
  | disj_right {g h : Formula} {v : Valuation} (hh : Satisfied h v) : Satisfied (.disj g h) v
  | conjAll {gs : List Formula} {v : Valuation} (h : ∀ g ∈ gs, Satisfied g v) :
      Satisfied (.conjAll gs) v
  | disjAll {gs : List Formula} {g : Formula} {v : Valuation} (hMem : g ∈ gs) (hg : Satisfied g v) :
      Satisfied (.disjAll gs) v
  | fresh {x : Var} {g : Formula} {v : Valuation} {t : Term} (ht : t.Ground)
      (hg : Satisfied g (Function.update v x t)) : Satisfied (.fresh x g) v
  | fresh2 {x y : Var} {g : Formula} {v : Valuation} {t u : Term} (ht : t.Ground) (hu : u.Ground)
      (hg : Satisfied g (Function.update (Function.update v x t) y u)) : Satisfied (.fresh2 x y g) v
  | memberOf {t u : Term} {values : List Term} {v : Valuation} (hMem : u ∈ values)
      (h : t.replace v = u.replace v) : Satisfied (.memberOf t values) v

theorem exists_both_iff {As Bs : List Condition} :
    (∃ C ∈ Branch.both As Bs, C v) ↔ (∃ A ∈ As, A v) ∧ ∃ B ∈ Bs, B v := by
  constructor
  · rintro ⟨C, hC, hv⟩
    obtain ⟨A, hA, hC⟩ := List.mem_flatMap.mp hC
    obtain ⟨B, hB, rfl⟩ := List.mem_map.mp hC
    exact ⟨⟨A, hA, hv.1⟩, B, hB, hv.2⟩
  · rintro ⟨⟨A, hA, hAv⟩, B, hB, hBv⟩
    exact ⟨_, List.mem_flatMap.mpr ⟨A, hA, List.mem_map.mpr ⟨B, hB, rfl⟩⟩, hAv, hBv⟩

theorem exists_bothAll_iff {Ass : List (List Condition)} :
    (∃ C ∈ Goal.bothAll Ass, C v) ↔ ∀ As ∈ Ass, ∃ A ∈ As, A v := by
  induction Ass with
  | nil => simp [Goal.bothAll]
  | cons As rest ih => rw [Goal.bothAll, exists_both_iff, ih, List.forall_mem_cons]

/-- What satisfies a formula meets one of its conditions. -/
theorem Satisfied.exists_condition (F : Facts) (h : g.Satisfied v) :
    ∃ A ∈ g.conditions F, A v := by
  induction h with
  | succeed => exact ⟨_, List.mem_singleton_self _, trivial⟩
  | eq h => exact ⟨_, List.mem_singleton_self _, h⟩
  | conj _ _ ihg ihh => exact exists_both_iff.mpr ⟨ihg, ihh⟩
  | disj_left _ ih =>
      obtain ⟨A, hA, hv⟩ := ih
      exact ⟨A, List.mem_append_left _ hA, hv⟩
  | disj_right _ ih =>
      obtain ⟨A, hA, hv⟩ := ih
      exact ⟨A, List.mem_append_right _ hA, hv⟩
  | conjAll _ ih =>
      rw [conditions, conditionsOf_eq]
      exact exists_bothAll_iff.mpr (List.forall_mem_map.mpr ih)
  | disjAll hMem _ ih =>
      obtain ⟨A, hA, hv⟩ := ih
      rw [conditions, conditionsOf_eq]
      exact ⟨A, List.mem_flatten.mpr ⟨_, List.mem_map_of_mem hMem, hA⟩, hv⟩
  | fresh _ _ ih =>
      obtain ⟨A, hA, hv⟩ := ih
      exact ⟨_, List.mem_map_of_mem hA, _, hv⟩
  | fresh2 _ _ _ ih =>
      obtain ⟨A, hA, hv⟩ := ih
      exact ⟨_, List.mem_map_of_mem hA, _, _, hv⟩
  | memberOf hMem h => exact ⟨_, List.mem_map_of_mem hMem, h⟩

/-- What meets a condition of a pure formula satisfies it, once all values are closed. -/
theorem Plain.satisfied_closed (hg : g.Plain .pure S) (h : ∃ A ∈ g.conditions F, A v) :
    g.Satisfied (Term.closed ∘ v) := by
  have hClosed {S : Var → Prop} {t u : Term} (ht : t.Built S Fragment.pure.constant)
      (hu : u.Built S Fragment.pure.constant) {v : Valuation} (hEq : t.replace v = u.replace v) :
      t.replace (Term.closed ∘ v) = u.replace (Term.closed ∘ v) := by
    rw [← Term.closed_replace (ht.whole fun _ hl => hl), hEq,
      Term.closed_replace (hu.whole fun _ hl => hl)]
  induction hg generalizing v with
  | succeed => exact .succeed
  | fail => simp [conditions] at h
  | eq ht hu =>
      obtain ⟨A, hA, hv⟩ := h
      obtain rfl := List.mem_singleton.mp hA
      exact .eq (hClosed ht hu hv)
  | conj _ _ ihg ihh =>
      obtain ⟨hg, hh⟩ := exists_both_iff.mp h
      exact .conj (ihg hg) (ihh hh)
  | disj _ _ ihg ihh =>
      obtain ⟨A, hA, hv⟩ := h
      rcases List.mem_append.mp hA with hA | hA
      · exact .disj_left (ihg ⟨A, hA, hv⟩)
      · exact .disj_right (ihh ⟨A, hA, hv⟩)
  | conjAll _ ih =>
      rw [conditions, conditionsOf_eq, exists_bothAll_iff] at h
      exact .conjAll fun g hg => ih g hg (h _ (List.mem_map_of_mem hg))
  | disjAll _ ih =>
      obtain ⟨A, hA, hv⟩ := h
      rw [conditions, conditionsOf_eq, ← List.flatMap_def] at hA
      obtain ⟨g, hg, hA⟩ := List.mem_flatMap.mp hA
      exact .disjAll hg (ih g hg ⟨A, hA, hv⟩)
  | fresh _ ih =>
      obtain ⟨A, hA, hv⟩ := h
      obtain ⟨B, hB, rfl⟩ := List.mem_map.mp hA
      obtain ⟨t, hv⟩ := hv
      refine .fresh t.ground_closed ?_
      rw [← Function.comp_update]
      exact ih ⟨B, hB, hv⟩
  | fresh2 _ ih =>
      obtain ⟨A, hA, hv⟩ := h
      obtain ⟨B, hB, rfl⟩ := List.mem_map.mp hA
      obtain ⟨t, u, hv⟩ := hv
      refine .fresh2 t.ground_closed u.ground_closed ?_
      rw [← Function.comp_update, ← Function.comp_update]
      exact ih ⟨B, hB, hv⟩
  | memberOf ht hValues =>
      obtain ⟨A, hA, hv⟩ := h
      obtain ⟨u, hu, rfl⟩ := List.mem_map.mp hA
      exact .memberOf hu (hClosed ht (hValues u hu) hv)
  | unary hr _ => exact hr.elim
  | binary hr _ _ => exact hr.elim

/-- Nothing is asked for by a pure formula, so that any facts are good enough. -/
theorem hold_pure {σ : Type} (o : Oracle σ) (K : σ → Prop) (c : Context) (F : Facts) :
    F.Hold o K c .pure :=
  ⟨fun _ h => h.elim, fun _ h => h.elim⟩

/-- A pure formula asked for the name `x` runs without failure on every oracle. A ground term
satisfies the formula for `x`, the other free names having some ground values, exactly if it is an
answer in which the placeholders are replaced by ground terms, the same by the same. -/
theorem answers_pure_iff_satisfied {σ : Type} (o : Oracle σ) (c : Context) (supply : Nat) (x : Var)
    (w : World σ) (hg : g.Plain .pure (Asked supply x)) :
    ∃ found, g.answers o c supply x w = .ok found ∧ ∀ t : Term, t.Ground →
      ((∃ v : Valuation, (∀ y, (v y).Ground) ∧ v x = t ∧ g.Satisfied v) ↔
        ∃ a ∈ found, ∃ f : Nat → Term, (∀ n, (f n).Ground) ∧ a.fill f = t) := by
  let F : Facts := ⟨fun _ => [], fun _ => []⟩
  obtain ⟨bs, hAnswers, hCovered⟩ :=
    hg.answers_eq (hold_pure o (fun _ => True) c F) (w := w) trivial
  refine ⟨_, hAnswers, fun t ht => ?_⟩
  rw [← hCovered.instance_iff (fun _ hl => hl) (Term.built_var.mpr (Nat.lt_succ_self supply)) ht]
  constructor
  · rintro ⟨v, _, rfl, hSatisfied⟩
    obtain ⟨A, hA, hv⟩ := hSatisfied.exists_condition F
    -- The query variable of the run takes the value of the name that is asked for.
    refine ⟨Function.update v ⟨supply⟩ (v x), Branch.admits_start _ _,
      ⟨under _ A, List.mem_map_of_mem hA, ?_⟩, by simp⟩
    refine (hg.conditions_congr (fun y hy => ?_) A hA).mp hv
    have hUpdate := update_replace (H := Fragment.pure.constant) (ρ := Term.var)
      (fun z (hz : z.id < supply) => Term.built_var.mpr hz) (Nat.le_refl supply) x v (v x) y hy
    simpa [Function.update_eq_self] using hUpdate
  · rintro ⟨v, _, ⟨_, hMem, hv⟩, rfl⟩
    obtain ⟨A, hA, rfl⟩ := List.mem_map.mp hMem
    refine ⟨_, fun y => Term.ground_closed _, ?_, hg.satisfied_closed ⟨A, hA, hv⟩⟩
    rw [Function.update_self]
    exact ht.closed_eq

/-- Lists of two equal items. -/
def twins : Formula :=
  .fresh ⟨1⟩ (.eq (.var ⟨0⟩) (.list [.var ⟨1⟩, .var ⟨1⟩]))

/-- Two equal texts are an answer to the question for twins, two different ones are not. -/
theorem answers_twins :
    twins.Plain .pure (Asked 0 ⟨0⟩) ∧
      ∃ found,
        twins.answers (⟨fun _ _ => (.error ⟨.unexpected, "lost"⟩, ())⟩ : Oracle Unit) ⟨.everything⟩
          0 ⟨0⟩ (.of ()) = .ok found ∧
        (∃ a ∈ found, ∃ f : Nat → Term, (∀ n, (f n).Ground) ∧
          a.fill f = .list [.str "a", .str "a"]) ∧
        ¬ ∃ a ∈ found, ∃ f : Nat → Term, (∀ n, (f n).Ground) ∧
          a.fill f = .list [.str "a", .str "b"] := by
  have hPlain : twins.Plain .pure (Asked 0 ⟨0⟩) :=
    .fresh (.eq (by simp [Asked]) (by simp [Term.Built, Term.LeafOf]))
  have hText (s : String) : (Term.str s).Ground := by
    simp [Term.ground_iff]
  have hGround (s t : String) : (Term.list [.str s, .str t]).Ground := by
    simp [Term.ground_iff]
  obtain ⟨found, hFound, hIff⟩ :=
    answers_pure_iff_satisfied (⟨fun _ _ => (.error ⟨.unexpected, "lost"⟩, ())⟩ : Oracle Unit)
      ⟨.everything⟩ 0 ⟨0⟩ (.of ()) hPlain
  refine ⟨hPlain, found, hFound, (hIff _ (hGround "a" "a")).mp ?_, fun h => ?_⟩
  · exact ⟨fun _ => .list [.str "a", .str "a"], fun _ => hGround "a" "a", rfl,
      .fresh (hText "a") (.eq rfl)⟩
  · obtain ⟨v, _, hv, hSatisfied⟩ := (hIff _ (hGround "a" "b")).mpr h
    cases hSatisfied with
    | @fresh _ _ _ t _ hEq =>
        cases hEq with
        | eq hEq =>
            have hPair : Term.list [.str "a", .str "b"] = Term.list [t, t] := by
              rw [← hv]
              exact hEq
            obtain ⟨hLeft, hRight, _⟩ : .str "a" = t ∧ .str "b" = t ∧ True := by simpa using hPair
            exact absurd (hLeft.trans hRight.symm) (by decide)

end Formula

end PageLogic
