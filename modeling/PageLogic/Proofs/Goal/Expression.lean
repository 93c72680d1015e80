import PageLogic.Proofs.Search.Coverage
import PageLogic.Proofs.Search.Delivery
/-!
What goals say. A goal expresses a list of conditions when its branches cover them, wherever it is
applied. Each way of making goals from goals has its counterpart on conditions.
-/
namespace PageLogic.Goal

variable {σ : Type} {o : Oracle σ} {K : σ → Prop} {c : Context} {H : Term → Prop} {n : Nat}
  {g h : Goal} {As Bs : List Condition}

/-- On every branch that has used the variables below `n`, the goal ends without failures, and its
branches cover the conditions. -/
def Expresses (o : Oracle σ) (K : σ → Prop) (c : Context) (H : Term → Prop) (n : Nat) (g : Goal)
    (As : List Condition) : Prop :=
  ∀ b : Branch, b.Fits H → n ≤ b.supply →
    ∃ bs, (g c b).Delivers o K (bs.map Except.ok) ∧ b.Covered H bs As

/-- The condition is about the variables below `n` only. -/
def Local (n : Nat) (A : Condition) : Prop :=
  ∀ v v', AgreeBelow n v v' → (A v ↔ A v')

theorem expresses_succeed : succeed.Expresses o K c H n [fun _ => True] :=
  fun b hb _ => ⟨[b], .unit b, hb.covered_self fun _ _ => trivial⟩

theorem expresses_fail : fail.Expresses o K c H n [] :=
  fun _ _ _ => ⟨[], .done, .nil⟩

theorem expresses_eq {t u : Term} (ht : t.Within H n) (hu : u.Within H n) :
    (eq t u).Expresses o K c H n [fun v => t.replace v = u.replace v] :=
  fun _ hb hn => ⟨_, .ofOption _, hb.covered_unify (ht.mono hn) (hu.mono hn)⟩

theorem Expresses.disj (hg : g.Expresses o K c H n As) (hh : h.Expresses o K c H n Bs) :
    (g.disj h).Expresses o K c H n (As ++ Bs) := by
  intro b hb hn
  obtain ⟨bs, hDelivers, hCovered⟩ := hg b hb hn
  obtain ⟨cs, hDelivers', hCovered'⟩ := hh b hb hn
  refine ⟨bs ++ cs, ?_, hCovered.append hCovered'⟩
  rw [List.map_append]
  exact hDelivers.append hDelivers'.delay

theorem Expresses.conj (hg : g.Expresses o K c H n As) (hh : h.Expresses o K c H n Bs)
    (hLocal : ∀ B ∈ Bs, Local n B) : (g.conj h).Expresses o K c H n (Branch.both As Bs) := by
  intro b hb hn
  obtain ⟨bs, hDelivers, hCovered⟩ := hg b hb hn
  have hNext (r : Branch) : ∃ cs, r ∈ bs →
      (h c r).Delivers o K (cs.map Except.ok) ∧ r.Covered H cs Bs := by
    by_cases hr : r ∈ bs
    · obtain ⟨A, _, hNarrows⟩ := hCovered.narrows_of_mem hr
      obtain ⟨cs, hcs⟩ := hh r hNarrows.fits (hn.trans hNarrows.supply_le)
      exact ⟨cs, fun _ => hcs⟩
    · exact ⟨[], fun hMem => absurd hMem hr⟩
  choose f hf using hNext
  exact ⟨bs.flatMap f, hDelivers.bind fun r hr => (hf r hr).1,
    hCovered.both (fun B hB v v' hv => hLocal B hB v v' (hv.mono hn)) fun r hr => (hf r hr).2⟩

/-- The goal is applied to the next unused variable, whichever that is. -/
theorem expresses_fresh {α : Type} {l : List α} {F : Term → Goal} {f : Nat → α → Condition}
    {A : α → Condition}
    (hF : ∀ m, n ≤ m → (F (.var ⟨m⟩)).Expresses o K c H (m + 1) (l.map (f m)))
    (hA : ∀ m, n ≤ m → ∀ x ∈ l, ∀ v, A x v ↔ ∃ t, f m x (Function.update v ⟨m⟩ t)) :
    (fresh F).Expresses o K c H n (l.map A) := by
  intro b hb hn
  obtain ⟨bs, hDelivers, hCovered⟩ := hF b.supply hn b.fresh.2 hb.fresh (Nat.le_refl _)
  exact ⟨bs, hDelivers, hCovered.fresh hb (hA b.supply hn)⟩

theorem expresses_memberOf {t : Term} {values : List Term} (ht : t.Within H n)
    (hValues : ∀ u ∈ values, u.Within H n) :
    (memberOf t values).Expresses o K c H n
      (values.map fun u v => t.replace v = u.replace v) := by
  intro b hb hn
  refine ⟨values.flatMap fun u => (b.unify t u).toList, ?_, ?_⟩
  · rw [List.map_flatMap]
    exact .each fun u _ => .ofOption _
  · rw [List.map_eq_flatMap]
    exact Branch.Covered.flatMap fun u hu => hb.covered_unify (ht.mono hn) ((hValues u hu).mono hn)

section Lists

variable {α : Type} {goal : α → Goal} {conditions : α → List Condition} {l : List α}

/-- The conditions of a conjunction of many. -/
def bothAll : List (List Condition) → List Condition
  | [] => [fun _ => True]
  | As :: rest => Branch.both As (bothAll rest)

theorem bothAll_congr {Ass : List (List Condition)} {v v' : Valuation}
    (h : ∀ As ∈ Ass, ∀ A ∈ As, (A v ↔ A v')) : ∀ C ∈ bothAll Ass, (C v ↔ C v') := by
  induction Ass with
  | nil => simp [bothAll]
  | cons As rest ih =>
      obtain ⟨hHead, hRest⟩ := List.forall_mem_cons.mp h
      exact Branch.both_congr hHead (ih hRest)

theorem Expresses.foldl_conj (hg : g.Expresses o K c H n As)
    (hGoals : ∀ x ∈ l, (goal x).Expresses o K c H n (conditions x))
    (hLocal : ∀ x ∈ l, ∀ B ∈ conditions x, Local n B) :
    ((l.map goal).foldl Goal.conj g).Expresses o K c H n
      (Branch.both As (bothAll (l.map conditions))) := by
  induction l generalizing g As with
  | nil => simpa [bothAll, Branch.both_true] using hg
  | cons x rest ih =>
      obtain ⟨hHead, hGoals⟩ := List.forall_mem_cons.mp hGoals
      obtain ⟨hLocalHead, hLocal⟩ := List.forall_mem_cons.mp hLocal
      rw [List.map_cons, List.map_cons, bothAll, ← Branch.both_assoc]
      exact ih (hg.conj hHead hLocalHead) hGoals hLocal

theorem expresses_conjAll (hGoals : ∀ x ∈ l, (goal x).Expresses o K c H n (conditions x))
    (hLocal : ∀ x ∈ l, ∀ B ∈ conditions x, Local n B) :
    (conjAll (l.map goal)).Expresses o K c H n (bothAll (l.map conditions)) := by
  cases l with
  | nil => exact expresses_succeed
  | cons x rest =>
      obtain ⟨hHead, hGoals⟩ := List.forall_mem_cons.mp hGoals
      obtain ⟨_, hLocal⟩ := List.forall_mem_cons.mp hLocal
      exact hHead.foldl_conj hGoals hLocal

theorem expresses_disjAll (hGoals : ∀ x ∈ l, (goal x).Expresses o K c H n (conditions x)) :
    (disjAll (l.map goal)).Expresses o K c H n (l.flatMap conditions) := by
  induction l with
  | nil => exact expresses_fail
  | cons x rest ih =>
      obtain ⟨hHead, hGoals⟩ := List.forall_mem_cons.mp hGoals
      cases rest with
      | nil => simpa [disjAll] using hHead
      | cons y rest => exact hHead.disj (ih hGoals)

end Lists

/-- A run of a goal that expresses conditions answers with the branches of a covering. -/
theorem Expresses.run {supply : Nat} {g : Term → Goal} {w : World σ}
    (h : (g (.var ⟨supply⟩)).Expresses o K c H (supply + 1) As) (hw : K w.state) :
    ∃ bs w', Goal.run o c none supply g w =
        (.ok (bs.map (·.reify (.var ⟨supply⟩))), w') ∧
      K w'.state ∧ (Branch.start (supply + 1)).Covered H bs As := by
  obtain ⟨bs, hDelivers, hCovered⟩ := h _ (Branch.fits_start _) (Nat.le_refl _)
  obtain ⟨w', hRun, hw'⟩ := run_all hDelivers hw
  exact ⟨bs, w', hRun, hw', hCovered⟩

end PageLogic.Goal
