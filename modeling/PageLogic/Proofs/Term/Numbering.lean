import PageLogic.Proofs.Term.Leaves
/-!
Numbered terms. Numbering forgets which variables a term has and keeps only where they are the same,
so that two terms that are instances of each other are numbered alike. The numbers occur in order.
-/
namespace PageLogic.Term

/-! ### Renaming under an injection -/

theorem eraseDups_map {α β : Type} [DecidableEq α] [DecidableEq β] {g : α → β} {l : List α}
    (hg : ∀ a ∈ l, ∀ b ∈ l, g a = g b → a = b) : (l.map g).eraseDups = l.eraseDups.map g := by
  induction hn : l.length using Nat.strong_induction_on generalizing l with
  | _ n ih =>
      cases l with
      | nil => rfl
      | cons a rest =>
          subst hn
          have hFilter : (rest.map g).filter (fun b => !b == g a) =
              (rest.filter fun b => !b == a).map g := by
            rw [List.filter_map]
            congr 1
            refine List.filter_congr fun b hb => ?_
            have hIff : g b = g a ↔ b = a :=
              ⟨hg b (List.mem_cons_of_mem _ hb) a List.mem_cons_self, congrArg g⟩
            by_cases h : b = a
            · simp [h]
            · have hNe : g b ≠ g a := fun he => h (hIff.mp he)
              simp [h, hNe]
          rw [List.map_cons, List.eraseDups_cons, List.eraseDups_cons, List.map_cons, hFilter]
          congr 1
          refine ih _ ?_ (fun b hb c hc => hg b ?_ c ?_) rfl
          · exact Nat.lt_succ_of_le (List.length_filter_le _ _)
          · exact List.mem_cons_of_mem _ (List.mem_of_mem_filter hb)
          · exact List.mem_cons_of_mem _ (List.mem_of_mem_filter hc)

theorem idxOf_map {α β : Type} [DecidableEq α] [DecidableEq β] {g : α → β} {l : List α} {a : α}
    (hg : ∀ b ∈ l, g b = g a → b = a) : (l.map g).idxOf (g a) = l.idxOf a := by
  induction l with
  | nil => rfl
  | cons b rest ih =>
      have hRest := ih fun c hc => hg c (List.mem_cons_of_mem _ hc)
      by_cases h : b = a
      · subst h
        simp
      · have hNe : g b ≠ g a := fun he => h (hg b List.mem_cons_self he)
        simp [List.idxOf_cons, beq_eq_false_iff_ne.mpr h, beq_eq_false_iff_ne.mpr hNe, hRest]

/-- Numbering does not depend on which variables a term has. -/
theorem numbered_rename {t : Term} {g : Var → Var}
    (hg : ∀ x ∈ t.vars, ∀ y ∈ t.vars, g x = g y → x = y) :
    (t.replace fun x => .var (g x)).numbered = t.numbered := by
  have hVars : (t.replace fun x => .var (g x)).vars = t.vars.map g := by
    rw [vars_replace, List.map_eq_flatMap]
    rfl
  unfold numbered
  rw [hVars, replace_replace, eraseDups_map hg]
  refine replace_congr fun x hx => ?_
  rw [replace_var, idxOf_map]
  exact fun y hy => hg y (List.mem_eraseDups.mp hy) x hx

/-- Terms that are instances of each other are numbered alike. -/
theorem numbered_eq_of_instances {t u : Term} {f g : Valuation} (hu : u = t.replace f)
    (ht : t = u.replace g) : t.numbered = u.numbered := by
  have hBack : ∀ x ∈ t.vars, (f x).replace g = .var x := by
    have hSelf : t.replace (fun x => (f x).replace g) = t.replace .var := by
      rw [← replace_replace, ← hu, ← ht, replace_self]
    exact eq_of_replace_eq hSelf
  -- What is replaced by a term that can be turned back is replaced by a variable.
  have hVar : ∀ x ∈ t.vars, ∃ y, f x = .var y := by
    intro x hx
    have h := hBack x hx
    cases hf : f x with
    | var y => exact ⟨y, rfl⟩
    | _ => simp [hf, replace] at h
  choose! name hName using hVar
  have hRename : u = t.replace fun x => .var (name x) := by
    rw [hu]
    exact replace_congr hName
  rw [hRename, numbered_rename]
  intro x hx y hy hEq
  have h := hBack x hx
  rw [hName x hx, hEq, ← hName y hy, hBack y hy] at h
  exact (Term.var.inj h).symm

/-! ### Numbering and filling -/

/-- Filling the numbers of a term replaces its variables. -/
theorem fill_numbered {t : Term} (ht : t.Whole) (f : Nat → Term) :
    t.numbered.fill f = t.replace fun x => f (t.vars.eraseDups.idxOf x) :=
  fill_replace ht f _

/-- Every replacement of the variables can be had by filling the numbers. -/
theorem exists_fill_numbered {t : Term} (ht : t.Whole) (v : Valuation) :
    t.numbered.fill (fun n => (t.vars.eraseDups[n]?).elim (.bool true) v) = t.replace v := by
  rw [fill_numbered ht]
  refine replace_congr fun x hx => ?_
  have hLt : t.vars.eraseDups.idxOf x < t.vars.eraseDups.length :=
    List.idxOf_lt_length_of_mem (List.mem_eraseDups.mpr hx)
  rw [List.getElem?_eq_getElem hLt, List.getElem_idxOf hLt]
  rfl

/-- A term without variables and its numbered form are the same. -/
theorem numbered_of_vars_eq_nil {t : Term} (h : t.vars = []) : t.numbered = t :=
  replace_of_vars_eq_nil h _

/-! ### The numbers in a numbered term -/

theorem nodup_eraseDups {α : Type} [DecidableEq α] (l : List α) : l.eraseDups.Nodup := by
  induction hn : l.length using Nat.strong_induction_on generalizing l with
  | _ n ih =>
      cases l with
      | nil => simp
      | cons a rest =>
          rw [List.eraseDups_cons, List.nodup_cons]
          constructor
          · simp
          · refine ih _ ?_ _ rfl
            exact hn ▸ Nat.lt_succ_of_le (List.length_filter_le _ _)

/-- Of the items of a list, different ones first occur at different places. -/
theorem idxOf_eraseDups_injOn {α : Type} [DecidableEq α] (l : List α) :
    Set.InjOn l.eraseDups.idxOf {a | a ∈ l} :=
  fun _ ha _ _ h => (List.idxOf_inj (List.mem_eraseDups.mpr ha)).mp h

/-- The number of a placeholder. -/
def placeholder? : Term → Option Nat
  | .placeholder n => some n
  | _ => none

/-- The numbers of the placeholders from left to right, once per occurrence. -/
def placeholders (t : Term) : List Nat :=
  t.leaves.filterMap placeholder?

/-- If every variable is replaced by a placeholder, the numbers stand where the variables stood. -/
theorem placeholders_replace {t : Term} (ht : t.Whole) (number : Var → Nat) :
    (t.replace fun x => .placeholder (number x)).placeholders = t.vars.map number := by
  unfold placeholders
  induction t with
  | placeholder n => exact absurd (by simp [leaves]) (ht n)
  | record fields ih =>
      simp only [replace_record, leaves_record, vars_record, List.flatMap_map, List.map_flatMap,
        List.filterMap_flatMap]
      exact List.flatMap_congr fun p hp => ih p hp (hereditary_whole _ ht _ (field_mem_parts hp))
  | list items ih =>
      simp only [replace_list, leaves_list, vars_list, List.flatMap_map, List.map_flatMap,
        List.filterMap_flatMap]
      exact List.flatMap_congr fun t hMem => ih t hMem (hereditary_whole _ ht _ (item_mem_parts hMem))
  | _ => simp [replace, leaves, vars, placeholder?]

/-- The numbers of a numbered term are 0, 1, 2, … in the order in which they first occur, one for each
of the variables. -/
theorem eraseDups_placeholders_numbered {t : Term} (ht : t.Whole) :
    t.numbered.placeholders.eraseDups = List.range t.vars.eraseDups.length := by
  have hInj := idxOf_eraseDups_injOn t.vars
  rw [numbered, placeholders_replace ht, eraseDups_map fun x hx y hy h => hInj hx hy h]
  apply List.ext_getElem
  · simp
  · intro i _ _
    simp [(nodup_eraseDups t.vars).idxOf_getElem]

/-- No variable is left in a numbered term. -/
theorem vars_numbered (t : Term) : t.numbered.vars = [] := by
  rw [numbered, vars_replace]
  simp [vars]

end PageLogic.Term
