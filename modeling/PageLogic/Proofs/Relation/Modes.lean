import PageLogic.Proofs.Check.Verdict
import PageLogic.Proofs.Page.Facts
/-!
Grounded and fresh modes. A relation that is a table of facts finds from one of its arguments
whatever it holds of together with the other.
-/
namespace PageLogic

variable {σ : Type} {o : Oracle σ} {K : σ → Prop} {c : Context} {H : Term → Prop}
  {As : List Condition} {w : World σ} {supply : Nat}

/-- A goal that expresses conditions holds exactly if its branches are some. -/
theorem Goal.Expresses.holds {g : Goal} (h : g.Expresses o K c H supply As) (hw : K w.state) :
    ∃ bs w', Check.holds o c supply g w = (.ok (!bs.isEmpty), w') ∧ K w'.state ∧
      (Branch.start supply).Covered H bs As := by
  obtain ⟨bs, hDelivers, hCovered⟩ := h _ (Branch.fits_start _) (Nat.le_refl _)
  obtain ⟨w', hHolds, hw'⟩ := Check.holds_eq hDelivers hw
  refine ⟨bs, w', hHolds.trans ?_, hw', hCovered⟩
  cases bs <;> rfl

/-- A value that makes one of the conditions hold is among the answers, if the condition leaves no
other value. -/
theorem Goal.Expresses.mem_run {f : Term → Goal}
    (h : (f (.var ⟨supply⟩)).Expresses o K c H (supply + 1) As) (hw : K w.state) {A : Condition}
    (hA : A ∈ As) {t : Term} (ht : t.vars = []) (hHolds : A fun _ => t)
    (hForces : ∀ v, A v → v ⟨supply⟩ = t) :
    ∃ found w', Goal.run o c none supply f w = (.ok found, w') ∧ K w'.state ∧ t ∈ found := by
  obtain ⟨bs, w', hRun, hw', hCovered⟩ := h.run hw
  obtain ⟨r, hr, hNarrows⟩ := hCovered.exists_narrows hA (Branch.admits_start _ _) hHolds
  refine ⟨_, w', hRun, hw', List.mem_map.mpr ⟨r, hr, ?_⟩⟩
  exact hNarrows.reify_eq_of_forces hForces ht

section

variable {r : Term → Term → Goal} {rows : List (Term × Term)} {a b : Term} (ha : a.vars = [])
  (hb : b.vars = [])
  (hBoth : (r a b).Expresses o K c H supply
    (rows.map fun row v => a.replace v = row.1 ∧ b.replace v = row.2))
  (hForward : (r a (.var ⟨supply⟩)).Expresses o K c H (supply + 1)
    (rows.map fun row v => a.replace v = row.1 ∧ (Term.var ⟨supply⟩).replace v = row.2))
  (hBackward : (r (.var ⟨supply⟩) b).Expresses o K c H (supply + 1)
    (rows.map fun row v => (Term.var ⟨supply⟩).replace v = row.1 ∧ b.replace v = row.2))

include ha hb

include hBoth in
/-- A table of facts holds of the rows that are in it. -/
theorem mem_rows_of_holds (hw : K w.state)
    (hHolds : (Check.holds o c supply (r a b) w).1 = .ok true) : (a, b) ∈ rows := by
  obtain ⟨bs, w', hEq, _, hCovered⟩ := hBoth.holds hw
  rw [hEq] at hHolds
  obtain ⟨q, bs, rfl⟩ : ∃ q rest, bs = q :: rest := by
    apply List.exists_cons_of_ne_nil
    rintro rfl
    cases hHolds
  obtain ⟨A, hA, hNarrows⟩ := hCovered.narrows_of_mem List.mem_cons_self
  obtain ⟨⟨t, u⟩, hRow, rfl⟩ := List.mem_map.mp hA
  obtain ⟨_, hLeft, hRight⟩ := hNarrows.sound _ (hNarrows.fits.acyclic.admits_resolve Term.var)
  rw [Term.replace_of_vars_eq_nil ha] at hLeft
  rw [Term.replace_of_vars_eq_nil hb] at hRight
  obtain rfl : a = t := hLeft
  obtain rfl : b = u := hRight
  exact hRow

include hForward hBackward in
/-- The second value of a row is among the answers for the first, and the first among the answers for the
second. -/
theorem mem_runs_of_mem_rows (hRow : (a, b) ∈ rows) :
    (∀ w : World σ, K w.state →
      ∃ found w', Goal.run o c none supply (r a) w = (.ok found, w') ∧ K w'.state ∧ b ∈ found) ∧
    ∀ w : World σ, K w.state →
      ∃ found w', Goal.run o c none supply (r · b) w = (.ok found, w') ∧ K w'.state ∧ a ∈ found := by
  constructor
  · intro w hw
    exact hForward.mem_run (f := r a) hw (List.mem_map_of_mem hRow) hb
      ⟨Term.replace_of_vars_eq_nil ha _, rfl⟩ fun v hv => hv.2
  · intro w hw
    exact hBackward.mem_run (f := (r · b)) hw (List.mem_map_of_mem hRow) ha
      ⟨rfl, Term.replace_of_vars_eq_nil hb _⟩ fun v hv => hv.1

include hBoth hForward hBackward in
/-- A table of facts agrees with itself in all modes. -/
theorem modesAgree_of_table (hw : K w.state) :
    (Check.modesAgree o c supply r a b w).1 = .ok true := by
  obtain ⟨bs, w₁, hHolds, hw₁, _⟩ := hBoth.holds hw
  unfold Check.modesAgree
  rw [hHolds]
  cases bs with
  | nil => rfl
  | cons q bs =>
      have hRow : (a, b) ∈ rows := mem_rows_of_holds ha hb hBoth hw (by rw [hHolds]; rfl)
      obtain ⟨hFindsSecond, hFindsFirst⟩ := mem_runs_of_mem_rows ha hb hForward hBackward hRow
      obtain ⟨forward, w₂, hRun, hw₂, hFound⟩ := hFindsSecond w₁ hw₁
      obtain ⟨backward, w₃, hRun', _, hFound'⟩ := hFindsFirst w₂ hw₂
      simp only [List.isEmpty_cons, Bool.not_false, hRun, hRun']
      simp [Except.map, hFound, hFound']

end

/-- On a page where no element answers with an unrecognized fault, under the root scope that admits
everything, the modes of every relation of two arguments agree about all terms without variables. -/
theorem Binary.modes_agree {w : World Page} (hRoot : c.scope.root = "*")
    (hElements : w.state.ElementsExpected) {r : Binary} (hr : r.Fixed) {a b : Term}
    (ha : a.vars = []) (hb : b.vars = []) (haIssued : ∀ e, a.Names e → w.state.Issued e)
    (hbIssued : ∀ e, b.Names e → w.state.Issued e) (supply : Nat) :
    (Check.modesAgree Page.oracle c supply r.goal a b w).1 = .ok true := by
  let L : Fragment := ⟨fun _ => False, Binary.Fixed, NamesOnly w.state.Issued⟩
  have hFacts := Page.facts_hold (L := L) hRoot hElements rfl (fun _ h => h)
    fun ⟨_, h⟩ => h.elim
  have hAsked : (Term.var ⟨supply⟩).Within L.constant (supply + 1) :=
    Term.built_var.mpr (Nat.lt_succ_self supply)
  exact modesAgree_of_table ha hb
    (hFacts.binary r hr supply a b (Term.built_of_names ha haIssued _)
      (Term.built_of_names hb hbIssued _))
    (hFacts.binary r hr (supply + 1) a _ (Term.built_of_names ha haIssued _) hAsked)
    (hFacts.binary r hr (supply + 1) _ b hAsked (Term.built_of_names hb hbIssued _))
    w.state.steady

/-- An item lies beneath its list. The list is found from the item, and the item from the list. -/
theorem childOf_modes_agree :
    let p := Page.load "https://example.org/" "<ul><li>one<li>two</ul>"
    let item := Term.element (p.handle 4)
    let list := Term.element (p.handle 3)
    (Check.holds Page.oracle ⟨.everything⟩ 0 (Binary.childOf.goal item list) (.of p)).1.toOption =
        some true ∧
      p.ElementsExpected ∧ (∀ e, item.Names e → p.Issued e) ∧ (∀ e, list.Names e → p.Issued e) ∧
      (Check.modesAgree Page.oracle ⟨.everything⟩ 0 Binary.childOf.goal item list (.of p)).1 =
        .ok true := by
  intro p item list
  have hElements : p.ElementsExpected := fun index h => by cases h
  have hIssued (index : Nat) : ∀ e, (Term.element (p.handle index)).Names e → p.Issued e := by
    intro e he
    obtain rfl : e = p.handle index := by simpa [Term.Names] using he
    exact p.issued_handle index
  refine ⟨by decide +kernel, hElements, hIssued 4, hIssued 3, ?_⟩
  exact Binary.modes_agree (c := ⟨.everything⟩) (w := .of p) (r := .childOf) rfl hElements trivial
    rfl rfl (hIssued 4) (hIssued 3) 0

end PageLogic
