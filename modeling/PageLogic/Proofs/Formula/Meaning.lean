import PageLogic.Proofs.Formula.Syntax
/-!
Plain formulas say what their conditions say. Where the relations of a fragment are tables of facts,
the goal of every formula of that fragment expresses its conditions.
-/
namespace PageLogic

variable {σ : Type} {o : Oracle σ} {K : σ → Prop} {c : Context} {L : Fragment} {F : Facts}
  {S : Var → Prop} {g : Formula} {n : Nat} {ρ : Valuation}

/-- Every relation of the fragment is a table of facts, however much is known of its arguments. -/
structure Facts.Hold (o : Oracle σ) (K : σ → Prop) (c : Context) (L : Fragment) (F : Facts) :
    Prop where
  unary : ∀ r, L.unary r → ∀ n t, t.Within L.constant n →
    (r.goal t).Expresses o K c L.constant n ((F.unary r).map fun a v => t.replace v = a)
  binary : ∀ r, L.binary r → ∀ n t u, t.Within L.constant n → u.Within L.constant n →
    (r.goal t u).Expresses o K c L.constant n
      ((F.binary r).map fun row v => t.replace v = row.1 ∧ u.replace v = row.2)

/-- A condition on the values of names, when every name stands for a term. -/
def under (ρ : Valuation) (A : Condition) : Condition :=
  fun v => A fun x => (ρ x).replace v

theorem map_under_both (ρ : Valuation) (As Bs : List Condition) :
    (Branch.both As Bs).map (under ρ) = Branch.both (As.map (under ρ)) (Bs.map (under ρ)) := by
  simp only [Branch.both, List.map_flatMap, List.flatMap_map, List.map_map]
  rfl

theorem map_under_bothAll (ρ : Valuation) (Ass : List (List Condition)) :
    (Goal.bothAll Ass).map (under ρ) = Goal.bothAll (Ass.map (List.map (under ρ))) := by
  induction Ass with
  | nil => rfl
  | cons As rest ih => rw [Goal.bothAll, map_under_both, ih, List.map_cons, Goal.bothAll]

namespace Formula

/-- What holds of the terms of all names in scope, and of the term of one that is bound anew, holds
of all names in scope then. -/
theorem forall_update {P : Term → Prop} {x : Var} {t : Term} (ht : P t) (h : ∀ y, S y → P (ρ y)) :
    ∀ y, y = x ∨ S y → P (Function.update ρ x t y) := by
  intro y hy
  by_cases hEq : y = x
  · rwa [hEq, Function.update_self]
  · rw [Function.update_of_ne hEq]
    exact h y (hy.resolve_left hEq)

theorem update_congr {v v' : Valuation} (h : ∀ y, S y → v y = v' y) (x : Var) (t : Term) :
    ∀ y, y = x ∨ S y → Function.update v x t y = Function.update v' x t y := by
  intro y hy
  by_cases hEq : y = x
  · rw [hEq, Function.update_self, Function.update_self]
  · rw [Function.update_of_ne hEq, Function.update_of_ne hEq]
    exact h y (hy.resolve_left hEq)

/-- The conditions of a formula are about its free names only. -/
theorem Plain.conditions_congr (hg : g.Plain L S) {v v' : Valuation} (h : ∀ x, S x → v x = v' x) :
    ∀ A ∈ g.conditions F, (A v ↔ A v') := by
  induction hg generalizing v v' with
  | succeed | fail => simp [conditions]
  | eq ht hu =>
      simp [conditions, ht.replace_eq h, hu.replace_eq h]
  | conj _ _ ihg ihh => exact Branch.both_congr (ihg h) (ihh h)
  | disj _ _ ihg ihh =>
      intro A hA
      rcases List.mem_append.mp hA with hA | hA
      · exact ihg h A hA
      · exact ihh h A hA
  | @conjAll _ gs _ ih =>
      rw [conditions, conditionsOf_eq]
      refine Goal.bothAll_congr fun As hAs => ?_
      obtain ⟨g, hg, rfl⟩ := List.mem_map.mp hAs
      exact ih g hg h
  | @disjAll _ gs _ ih =>
      intro A hA
      rw [conditions, conditionsOf_eq, ← List.flatMap_def] at hA
      obtain ⟨g, hg, hA⟩ := List.mem_flatMap.mp hA
      exact ih g hg h A hA
  | @fresh _ x g _ ih =>
      intro A hA
      obtain ⟨B, hB, rfl⟩ := List.mem_map.mp hA
      exact exists_congr fun t => ih (update_congr h x t) B hB
  | @fresh2 _ x y g _ ih =>
      intro A hA
      obtain ⟨B, hB, rfl⟩ := List.mem_map.mp hA
      exact exists₂_congr fun t u => ih (update_congr (update_congr h x t) y u) B hB
  | memberOf ht hValues =>
      intro A hA
      obtain ⟨u, hu, rfl⟩ := List.mem_map.mp hA
      simp only [ht.replace_eq h, (hValues u hu).replace_eq h]
  | unary _ ht =>
      intro A hA
      obtain ⟨a, _, rfl⟩ := List.mem_map.mp hA
      simp only [ht.replace_eq h]
  | binary _ ht hu =>
      intro A hA
      obtain ⟨row, _, rfl⟩ := List.mem_map.mp hA
      simp only [ht.replace_eq h, hu.replace_eq h]

/-- A condition of a formula is about the variables that the terms of its names have. -/
theorem Plain.local_under (hg : g.Plain L S) (hρ : ∀ x, S x → (ρ x).Within L.constant n) :
    ∀ A ∈ (g.conditions F).map (under ρ), Goal.Local n A := by
  intro A hA v v' hv
  obtain ⟨B, hB, rfl⟩ := List.mem_map.mp hA
  exact hg.conditions_congr (fun x hx => (hρ x hx).replace_eq hv) B hB

/-- A name that is bound to the next unused variable takes every value that this variable takes. -/
theorem update_replace {H : Term → Prop} (hρ : ∀ y, S y → (ρ y).Within H n) {m : Nat} (hm : n ≤ m)
    (x : Var) (v : Valuation) (t : Term) :
    ∀ y, y = x ∨ S y → Function.update (fun y => (ρ y).replace v) x t y =
      (Function.update ρ x (.var ⟨m⟩) y).replace (Function.update v ⟨m⟩ t) := by
  intro y hy
  by_cases hEq : y = x
  · rw [hEq, Function.update_self, Function.update_self, Term.replace_var, Function.update_self]
  · rw [Function.update_of_ne hEq, Function.update_of_ne hEq]
    refine (hρ y (hy.resolve_left hEq)).replace_eq fun z hz => ?_
    rw [Function.update_of_ne]
    rintro rfl
    exact Nat.not_lt_of_le hm hz

/-- What a formula expresses with one name more in scope, it expresses of some value of that name
when the name is bound. -/
theorem expresses_bind {H : Term → Prop} {x : Var} {G : Valuation → Goal} {As : List Condition}
    (hG : ∀ ρ n, (∀ y, y = x ∨ S y → (ρ y).Within H n) →
      (G ρ).Expresses o K c H n (As.map (under ρ)))
    (hAs : ∀ v v', (∀ y, y = x ∨ S y → v y = v' y) → ∀ A ∈ As, (A v ↔ A v'))
    (hρ : ∀ y, S y → (ρ y).Within H n) :
    (Goal.fresh fun t => G (Function.update ρ x t)).Expresses o K c H n
      ((As.map fun A v => ∃ t, A (Function.update v x t)).map (under ρ)) := by
  rw [List.map_map]
  refine Goal.expresses_fresh (f := fun m => under (Function.update ρ x (.var ⟨m⟩)))
    (fun m hm => ?_) fun m hm A hA v => ?_
  · refine hG _ _ (forall_update (Term.built_var.mpr (Nat.lt_succ_self m)) fun y hy => ?_)
    exact (hρ y hy).mono (Nat.le_succ_of_le hm)
  · exact exists_congr fun t => hAs _ _ (update_replace hρ hm x v t) A hA

/-- The goal of a plain formula expresses the conditions of the formula. -/
theorem Plain.expresses (hF : F.Hold o K c L) (hg : g.Plain L S)
    (hρ : ∀ x, S x → (ρ x).Within L.constant n) :
    (g.goal ρ).Expresses o K c L.constant n ((g.conditions F).map (under ρ)) := by
  induction hg generalizing ρ n with
  | succeed => exact Goal.expresses_succeed
  | fail => exact Goal.expresses_fail
  | eq ht hu =>
      have hEq := Goal.expresses_eq (o := o) (K := K) (c := c) (ht.replace hρ) (hu.replace hρ)
      simp only [Term.replace_replace] at hEq
      exact hEq
  | conj _ hh ihg ihh =>
      rw [conditions, map_under_both]
      exact (ihg hρ).conj (ihh hρ) (hh.local_under hρ)
  | disj _ _ ihg ihh =>
      rw [conditions, List.map_append]
      exact (ihg hρ).disj (ihh hρ)
  | @conjAll _ gs h ih =>
      rw [goal, goals_eq, conditions, conditionsOf_eq, map_under_bothAll, List.map_map]
      exact Goal.expresses_conjAll (fun g hg => ih g hg hρ) fun g hg => (h g hg).local_under hρ
  | @disjAll _ gs _ ih =>
      rw [goal, goals_eq, conditions, conditionsOf_eq, ← List.flatMap_def, List.map_flatMap]
      exact Goal.expresses_disjAll fun g hg => ih g hg hρ
  | @fresh _ x g hg ih =>
      exact expresses_bind (fun ρ n hρ => ih hρ) (fun v v' hv => hg.conditions_congr hv) hρ
  | @fresh2 S x y g hg ih =>
      have hInner (ρ : Valuation) (n : Nat) (hρ : ∀ z, z = x ∨ S z → (ρ z).Within L.constant n) :=
        expresses_bind (fun ρ n hρ => ih hρ) (fun v v' hv => hg.conditions_congr hv) hρ
      have hOuter := expresses_bind hInner (fun v v' hv A hA => ?_) hρ
      · simp only [List.map_map] at hOuter
        rw [conditions, List.map_map]
        exact hOuter
      · obtain ⟨B, hB, rfl⟩ := List.mem_map.mp hA
        exact exists_congr fun u => hg.conditions_congr (update_congr hv y u) B hB
  | @memberOf _ t values ht hValues =>
      have hMember := Goal.expresses_memberOf (o := o) (K := K) (c := c) (ht.replace hρ)
        (List.forall_mem_map.mpr fun u hu => (hValues u hu).replace hρ)
      rw [List.map_map] at hMember
      simp only [Function.comp_def, Term.replace_replace] at hMember
      rw [conditions, List.map_map]
      exact hMember
  | @unary _ r t hr ht =>
      have hUnary := hF.unary r hr n (t.replace ρ) (ht.replace hρ)
      simp only [Term.replace_replace] at hUnary
      rw [conditions, List.map_map]
      exact hUnary
  | @binary _ r t u hr ht hu =>
      have hBinary := hF.binary r hr n (t.replace ρ) (u.replace ρ) (ht.replace hρ) (hu.replace hρ)
      simp only [Term.replace_replace] at hBinary
      rw [conditions, List.map_map]
      exact hBinary

/-- All answers for a name, the variables below `supply` being in use. -/
def answers (o : Oracle σ) (c : Context) (supply : Nat) (x : Var) (g : Formula) (w : World σ) :
    Except Error (List Term) :=
  (Goal.run o c none supply (fun q => g.goal (Function.update Term.var x q)) w).1

/-- The name that is asked for, and the variables below `supply`. -/
abbrev Asked (supply : Nat) (x : Var) : Var → Prop :=
  fun y => y = x ∨ y.id < supply

/-- The answers to a plain formula come from branches that cover its conditions. -/
theorem Plain.answers_eq (hF : F.Hold o K c L) {supply : Nat} {x : Var}
    (hg : g.Plain L (Asked supply x)) {w : World σ} (hw : K w.state) :
    ∃ bs, g.answers o c supply x w = .ok (bs.map (·.reify (.var ⟨supply⟩))) ∧
      (Branch.start (supply + 1)).Covered L.constant bs
        ((g.conditions F).map (under (Function.update Term.var x (.var ⟨supply⟩)))) := by
  have hNames := forall_update (P := Term.Within L.constant (supply + 1)) (x := x)
    (Term.built_var.mpr (Nat.lt_succ_self supply)) fun y (hy : y.id < supply) =>
      Term.built_var.mpr (Nat.lt_succ_of_lt hy)
  obtain ⟨bs, w', hRun, _, hCovered⟩ :=
    Goal.Expresses.run (g := fun q => g.goal (Function.update Term.var x q))
      (hg.expresses hF hNames) hw
  exact ⟨bs, by rw [answers, hRun], hCovered⟩

end Formula

end PageLogic
