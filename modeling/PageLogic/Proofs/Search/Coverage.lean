import PageLogic.Proofs.Substitution.Unify
import PageLogic.Proofs.Term.Numbering
import PageLogic.Search
/-!
Branches as conditions. A branch admits some valuations of the variables; a branch that was reached
from it admits fewer, or the same with values for the variables it has used since. A list of branches
covers a list of conditions when it has one branch for each of them that can be met, in order. The
answers of two such lists are the same, so that the conditions determine the answers.
-/
namespace PageLogic

/-- A condition on the values of the variables. -/
abbrev Condition := Valuation → Prop

/-- The two valuations give the same values to the variables below `n`. -/
def AgreeBelow (n : Nat) (v v' : Valuation) : Prop :=
  ∀ x : Var, x.id < n → v x = v' x

theorem AgreeBelow.mono {m n : Nat} (h : m ≤ n) {v v' : Valuation} (hv : AgreeBelow n v v') :
    AgreeBelow m v v' :=
  fun x hx => hv x (Nat.lt_of_lt_of_le hx h)

namespace Term

/-- A variable in `S`, or another leaf in `H`. -/
def LeafOf (S : Var → Prop) (H : Term → Prop) : Term → Prop
  | .var x => S x
  | t => H t

/-- The variables of the term are in `S`, its other leaves in `H`. -/
def Built (S : Var → Prop) (H : Term → Prop) (t : Term) : Prop :=
  ∀ l ∈ t.leaves, l.LeafOf S H

/-- The variables of the term are below `n`, its other leaves in `H`. -/
abbrev Within (H : Term → Prop) (n : Nat) : Term → Prop :=
  Built (·.id < n) H

variable {S S' : Var → Prop} {H : Term → Prop} {m n : Nat} {t : Term}

theorem built_hereditary (S : Var → Prop) (H : Term → Prop) : Hereditary (Built S H) :=
  hereditary_leaves _

@[simp] theorem built_var {x : Var} : (var x).Built S H ↔ S x := by
  simp [Built, LeafOf]

theorem Built.of_mem_vars (ht : t.Built S H) {x : Var} (hx : x ∈ t.vars) : S x :=
  ht _ (mem_vars_iff.mp hx)

theorem Built.mono (h : ∀ x, S x → S' x) (ht : t.Built S H) : t.Built S' H := by
  intro l hl
  have hLeaf := ht l hl
  cases l with
  | var x => exact h x hLeaf
  | _ => exact hLeaf

theorem Within.mono (h : m ≤ n) (ht : t.Within H m) : t.Within H n :=
  Built.mono (fun _ hx => Nat.lt_of_lt_of_le hx h) ht

theorem Built.replace (ht : t.Built S H) {f : Valuation} (hf : ∀ x, S x → (f x).Built S' H) :
    (t.replace f).Built S' H := by
  intro l hl
  rcases mem_leaves_replace hl with ⟨hOld, hNot⟩ | ⟨x, hx, hNew⟩
  · have hLeaf := ht l hOld
    cases l with
    | var x => exact absurd rfl (hNot x)
    | _ => exact hLeaf
  · exact hf x (ht.of_mem_vars hx) l hNew

/-- The value of a term depends only on the variables that it may have. -/
theorem Built.replace_eq (ht : t.Built S H) {v v' : Valuation} (h : ∀ x, S x → v x = v' x) :
    t.replace v = t.replace v' :=
  replace_congr fun x hx => h x (ht.of_mem_vars hx)

/-- Resolving brings in no leaves but those of bindings. -/
theorem Built.resolve {s : Substitution} (hs : s.Over (Built S H)) (ht : t.Built S H) :
    (s.resolve t).Built S H := by
  induction s, t using Substitution.follow with
  | bound s x t hx ih =>
      rw [Substitution.resolve_of_lookup hx]
      exact ih (hs.without x) (hs _ (Substitution.mem_bindings_of_lookup hx)).2
  | unbound s x hx => rwa [Substitution.resolve_of_unbound hx]
  | record s fields ih =>
      intro l hl
      rw [Substitution.resolve_record, leaves_record, List.flatMap_map, List.mem_flatMap] at hl
      obtain ⟨p, hp, hl⟩ := hl
      exact ih p hp hs (built_hereditary S H _ ht _ (field_mem_parts hp)) l hl
  | list s items ih =>
      intro l hl
      rw [Substitution.resolve_list, leaves_list, List.flatMap_map, List.mem_flatMap] at hl
      obtain ⟨u, hu, hl⟩ := hl
      exact ih u hu hs (built_hereditary S H _ ht _ (item_mem_parts hu)) l hl
  | _ => simpa [Substitution.resolve] using ht

/-- Without placeholders among the leaves that it may have, a term is whole. -/
theorem Built.whole (ht : t.Built S H) (hH : ∀ l, H l → ∀ k, l ≠ .placeholder k) : t.Whole :=
  fun k hk => hH _ (ht _ hk) k rfl

end Term

namespace Branch

/-- The valuation gives every bound variable the value of what it is bound to. -/
abbrev Admits (b : Branch) (v : Valuation) : Prop :=
  b.substitution.Admits v

/-- No valuation that the branch admits meets the condition. -/
def Refutes (b : Branch) (A : Condition) : Prop :=
  ∀ v, b.Admits v → ¬ A v

/-- The bindings of the branch make no circle, and are about variables that it has used. -/
structure Fits (H : Term → Prop) (b : Branch) : Prop where
  acyclic : b.substitution.Acyclic
  bindings_over : b.substitution.Over (Term.Within H b.supply)

/-- The branch `r` says what `b` says, and the condition, and no more of the variables of `b`. -/
structure Narrows (H : Term → Prop) (b r : Branch) (A : Condition) : Prop where
  fits : r.Fits H
  supply_le : b.supply ≤ r.supply
  sound : ∀ v, r.Admits v → b.Admits v ∧ A v
  complete : ∀ v, b.Admits v → A v → ∃ v', r.Admits v' ∧ AgreeBelow b.supply v v'

/-- One branch for each condition that can be met, in order. -/
inductive Covered (H : Term → Prop) (b : Branch) : List Branch → List Condition → Prop where
  | nil : Covered H b [] []
  | skip {A : Condition} {bs : List Branch} {As : List Condition} (h : b.Refutes A)
      (hRest : Covered H b bs As) : Covered H b bs (A :: As)
  | keep {A : Condition} {r : Branch} {bs : List Branch} {As : List Condition}
      (h : b.Narrows H r A) (hRest : Covered H b bs As) : Covered H b (r :: bs) (A :: As)

variable {H : Term → Prop} {b r : Branch} {A B : Condition} {bs : List Branch}
  {As : List Condition}

theorem fits_start (n : Nat) : (start n).Fits H :=
  ⟨.empty, Substitution.over_empty⟩

/-- A branch that knows nothing admits everything. -/
theorem admits_start (n : Nat) (v : Valuation) : (start n).Admits v := by
  intro x t hx
  simp [start] at hx

theorem Fits.fresh (hb : b.Fits H) : b.fresh.2.Fits H :=
  ⟨hb.acyclic, hb.bindings_over.mono fun _ ht => ht.mono (Nat.le_succ _)⟩

/-- What a branch admits depends only on the variables that it has used. -/
theorem Fits.admits_congr (hb : b.Fits H) {v v' : Valuation} (h : AgreeBelow b.supply v v') :
    b.Admits v ↔ b.Admits v' := by
  refine forall₃_congr fun x t hx => ?_
  obtain ⟨hVar, hTerm⟩ := hb.bindings_over _ (Substitution.mem_bindings_of_lookup hx)
  rw [h x (Term.built_var.mp hVar), hTerm.replace_eq h]

/-! ### Narrowing -/

theorem Narrows.trans (h : b.Narrows H r A) {q : Branch} (hNext : r.Narrows H q B)
    (hB : ∀ v v', AgreeBelow b.supply v v' → (B v ↔ B v')) :
    b.Narrows H q fun v => A v ∧ B v where
  fits := hNext.fits
  supply_le := h.supply_le.trans hNext.supply_le
  sound v hv := by
    obtain ⟨hr, hBv⟩ := hNext.sound v hv
    obtain ⟨hb, hAv⟩ := h.sound v hr
    exact ⟨hb, hAv, hBv⟩
  complete v hv hAB := by
    obtain ⟨v₁, hv₁, hAgree⟩ := h.complete v hv hAB.1
    obtain ⟨v₂, hv₂, hAgree'⟩ := hNext.complete v₁ hv₁ ((hB v v₁ hAgree).mp hAB.2)
    exact ⟨v₂, hv₂, fun x hx => (hAgree x hx).trans (hAgree' x (hx.trans_le h.supply_le))⟩

theorem Narrows.congr (h : b.Narrows H r A) (hAB : ∀ v, b.Admits v → (A v ↔ B v)) :
    b.Narrows H r B where
  fits := h.fits
  supply_le := h.supply_le
  sound v hv := (h.sound v hv).imp_right fun hA => (hAB v (h.sound v hv).1).mp hA
  complete v hv hB := h.complete v hv ((hAB v hv).mpr hB)

/-- A branch admits something, so that a condition it narrows by can be met. -/
theorem Narrows.not_refutes (h : b.Narrows H r A) : ¬ b.Refutes A := by
  intro hRefutes
  obtain ⟨hb, hA⟩ := h.sound _ (h.fits.acyclic.admits_resolve Term.var)
  exact hRefutes _ hb hA

/-- What is known of a term on one of the branches can be had from what is known of it on the other. -/
theorem Narrows.resolve_instance (h : b.Narrows H r A) {r' : Branch} (h' : b.Narrows H r' A)
    {q : Term} (hq : q.Within H b.supply) :
    ∃ f, r.substitution.resolve q = (r'.substitution.resolve q).replace f := by
  have hAdmits : r.Admits fun x => r.substitution.resolve (.var x) := by
    simpa using h.fits.acyclic.admits_resolve Term.var
  obtain ⟨hb, hA⟩ := h.sound _ hAdmits
  obtain ⟨f, hf, hAgree⟩ := h'.complete _ hb hA
  refine ⟨f, ?_⟩
  rw [hf.replace_resolve, Substitution.resolve_eq_replace, hq.replace_eq hAgree]

/-- Branches that narrow by the same condition give the same answer. -/
theorem Narrows.reify_eq (h : b.Narrows H r A) {r' : Branch} (h' : b.Narrows H r' A) {q : Term}
    (hq : q.Within H b.supply) : r.reify q = r'.reify q := by
  obtain ⟨f, hf⟩ := h.resolve_instance h' hq
  obtain ⟨g, hg⟩ := h'.resolve_instance h hq
  exact Term.numbered_eq_of_instances hg hf

/-- A condition that leaves a term one value is answered with this value. -/
theorem Narrows.reify_eq_of_forces (h : b.Narrows H r A) {q t : Term}
    (hForces : ∀ v, A v → q.replace v = t) (ht : t.vars = []) : r.reify q = t := by
  have hAdmits : r.Admits fun x => r.substitution.resolve (.var x) := by
    simpa using h.fits.acyclic.admits_resolve Term.var
  have hResolve := hForces _ (h.sound _ hAdmits).2
  rw [← Substitution.resolve_eq_replace] at hResolve
  show (r.substitution.resolve q).numbered = t
  rw [hResolve, Term.numbered_of_vars_eq_nil ht]

/-! ### Covering -/

/-- The conditions may be exchanged, and the branch with them. -/
theorem Covered.transfer {α : Type} {l : List α} {f g : α → Condition} {b' : Branch}
    (h : b.Covered H bs (l.map f)) (hRefutes : ∀ x ∈ l, b.Refutes (f x) → b'.Refutes (g x))
    (hNarrows : ∀ x ∈ l, ∀ r, b.Narrows H r (f x) → b'.Narrows H r (g x)) :
    b'.Covered H bs (l.map g) := by
  induction l generalizing bs with
  | nil =>
      cases h
      exact .nil
  | cons x rest ih =>
      obtain ⟨hRefutesHead, hRefutes⟩ := List.forall_mem_cons.mp hRefutes
      obtain ⟨hNarrowsHead, hNarrows⟩ := List.forall_mem_cons.mp hNarrows
      cases h with
      | skip h hRest => exact .skip (hRefutesHead h) (ih hRest hRefutes hNarrows)
      | keep h hRest => exact .keep (hNarrowsHead _ h) (ih hRest hRefutes hNarrows)

theorem Covered.congr {α : Type} {l : List α} {f g : α → Condition}
    (h : b.Covered H bs (l.map f)) (hfg : ∀ x ∈ l, ∀ v, b.Admits v → (f x v ↔ g x v)) :
    b.Covered H bs (l.map g) :=
  h.transfer (fun x hx hf v hv hg => hf v hv ((hfg x hx v hv).mpr hg))
    fun x hx _ hr => hr.congr (hfg x hx)

theorem Covered.append {bs' : List Branch} {As' : List Condition} (h : b.Covered H bs As)
    (h' : b.Covered H bs' As') : b.Covered H (bs ++ bs') (As ++ As') := by
  induction h with
  | nil => exact h'
  | skip h _ ih => exact .skip h ih
  | keep h _ ih => exact .keep h ih

theorem Covered.flatMap {α : Type} {l : List α} {f : α → List Branch} {g : α → List Condition}
    (h : ∀ x ∈ l, b.Covered H (f x) (g x)) : b.Covered H (l.flatMap f) (l.flatMap g) := by
  induction l with
  | nil => exact .nil
  | cons x rest ih =>
      obtain ⟨hHead, hRest⟩ := List.forall_mem_cons.mp h
      exact hHead.append (ih hRest)

theorem covered_nil_of_refutes (h : ∀ A ∈ As, b.Refutes A) : b.Covered H [] As := by
  induction As with
  | nil => exact .nil
  | cons A rest ih =>
      obtain ⟨hHead, hRest⟩ := List.forall_mem_cons.mp h
      exact .skip hHead (ih hRest)

/-- Every branch of a covering narrows by one of the conditions. -/
theorem Covered.narrows_of_mem (h : b.Covered H bs As) (hr : r ∈ bs) :
    ∃ A ∈ As, b.Narrows H r A := by
  induction h with
  | nil => cases hr
  | skip _ _ ih =>
      obtain ⟨A, hA, hNarrows⟩ := ih hr
      exact ⟨A, List.mem_cons_of_mem _ hA, hNarrows⟩
  | @keep A _ _ _ h _ ih =>
      rcases List.mem_cons.mp hr with rfl | hr
      · exact ⟨A, List.mem_cons_self, h⟩
      · obtain ⟨B, hB, hNarrows⟩ := ih hr
        exact ⟨B, List.mem_cons_of_mem _ hB, hNarrows⟩

/-- A condition that is met has its branch. -/
theorem Covered.exists_narrows (h : b.Covered H bs As) (hA : A ∈ As) {v : Valuation}
    (hv : b.Admits v) (hAv : A v) : ∃ r ∈ bs, b.Narrows H r A := by
  induction h with
  | nil => cases hA
  | skip h _ ih =>
      rcases List.mem_cons.mp hA with rfl | hA
      · exact absurd hAv (h v hv)
      · exact ih hA
  | keep h _ ih =>
      rcases List.mem_cons.mp hA with rfl | hA
      · exact ⟨_, List.mem_cons_self, h⟩
      · obtain ⟨r, hr, hNarrows⟩ := ih hA
        exact ⟨r, List.mem_cons_of_mem _ hr, hNarrows⟩

/-- A branch covers what it knows already. -/
theorem Fits.covered_self (hb : b.Fits H) (hA : ∀ v, b.Admits v → A v) : b.Covered H [b] [A] :=
  .keep ⟨hb, Nat.le_refl _, fun v hv => ⟨hv, hA v hv⟩, fun v hv _ => ⟨v, hv, fun _ _ => rfl⟩⟩ .nil

/-- Only the conditions of one member can be met. -/
theorem Covered.flatMap_of_unique {α : Type} {l : List α} {f : α → List Condition} {x : α}
    (hNodup : l.Nodup) (hx : x ∈ l) (h : b.Covered H bs (f x))
    (hRefutes : ∀ y, y ≠ x → ∀ A ∈ f y, b.Refutes A) : b.Covered H bs (l.flatMap f) := by
  obtain ⟨front, behind, rfl⟩ := List.append_of_mem hx
  have hNot : ∀ y ∈ front ++ behind, y ≠ x := by
    have hPerm := (List.perm_middle.nodup_iff.mp hNodup)
    rintro y hy rfl
    exact (List.nodup_cons.mp hPerm).1 hy
  have hOthers (others : List α) (hOthers : ∀ y ∈ others, y ≠ x) :
      b.Covered H [] (others.flatMap f) := by
    refine covered_nil_of_refutes fun A hA => ?_
    obtain ⟨y, hy, hA⟩ := List.mem_flatMap.mp hA
    exact hRefutes y (hOthers y hy) A hA
  rw [List.flatMap_append, List.flatMap_cons]
  have hFront := hOthers front fun y hy => hNot y (List.mem_append_left _ hy)
  have hBehind := hOthers behind fun y hy => hNot y (List.mem_append_right _ hy)
  simpa using hFront.append (h.append hBehind)

/-- Conditions that cannot be met may be left out. -/
theorem Covered.filter {α : Type} {l : List α} {p : α → Bool} {f : α → Condition}
    (h : b.Covered H bs (l.map f)) (hRefutes : ∀ x ∈ l, p x = false → b.Refutes (f x)) :
    b.Covered H bs ((l.filter p).map f) := by
  induction l generalizing bs with
  | nil => exact h
  | cons x rest ih =>
      obtain ⟨hHead, hRest⟩ := List.forall_mem_cons.mp hRefutes
      cases hp : p x with
      | false =>
          rw [List.filter_cons_of_neg (by simp [hp])]
          cases h with
          | skip _ hCovered => exact ih hCovered hRest
          | keep h _ => exact absurd (hHead hp) h.not_refutes
      | true =>
          rw [List.filter_cons_of_pos hp]
          cases h with
          | skip h hCovered => exact .skip h (ih hCovered hRest)
          | keep h hCovered => exact .keep h (ih hCovered hRest)

/-- The conditions that hold when one of the first list and one of the second hold. -/
def both (As Bs : List Condition) : List Condition :=
  As.flatMap fun A => Bs.map fun B v => A v ∧ B v

theorem both_congr {Bs : List Condition} {v v' : Valuation} (hAs : ∀ A ∈ As, (A v ↔ A v'))
    (hBs : ∀ B ∈ Bs, (B v ↔ B v')) : ∀ C ∈ both As Bs, (C v ↔ C v') := by
  intro C hC
  obtain ⟨A, hA, hC⟩ := List.mem_flatMap.mp hC
  obtain ⟨B, hB, rfl⟩ := List.mem_map.mp hC
  exact and_congr (hAs A hA) (hBs B hB)

theorem both_singleton (A : Condition) (Bs : List Condition) :
    both [A] Bs = Bs.map fun B v => A v ∧ B v := by
  simp [both]

theorem both_assoc (As Bs Cs : List Condition) : both (both As Bs) Cs = both As (both Bs Cs) := by
  simp [both, List.flatMap_assoc, List.map_flatMap, List.flatMap_map, and_assoc, Function.comp_def]

theorem both_true (As : List Condition) : both As [fun _ => True] = As := by
  simp [both]

/-- Each branch of a covering may be covered in turn. -/
theorem Covered.both {Bs : List Condition} {f : Branch → List Branch} (h : b.Covered H bs As)
    (hBs : ∀ B ∈ Bs, ∀ v v', AgreeBelow b.supply v v' → (B v ↔ B v'))
    (hf : ∀ r ∈ bs, r.Covered H (f r) Bs) : b.Covered H (bs.flatMap f) (both As Bs) := by
  induction h with
  | nil => exact .nil
  | @skip A bs As h _ ih =>
      refine (covered_nil_of_refutes fun C hC => ?_).append (ih hf)
      obtain ⟨B, _, rfl⟩ := List.mem_map.mp hC
      exact fun v hv hAB => h v hv hAB.1
  | @keep A r bs As h _ ih =>
      obtain ⟨hHead, hRest⟩ := List.forall_mem_cons.mp hf
      refine Covered.append ?_ (ih hRest)
      rw [← List.map_id Bs] at hHead
      refine hHead.transfer (fun B hB hRefutes v hv hAB => ?_) fun B hB q hq => h.trans hq (hBs B hB)
      obtain ⟨v', hv', hAgree⟩ := h.complete v hv hAB.1
      exact hRefutes v' hv' ((hBs B hB v v' hAgree).mp hAB.2)

/-- A condition on a new variable as well is met if some value of that variable meets it. -/
theorem Covered.fresh {α : Type} {l : List α} {f g : α → Condition} (hb : b.Fits H)
    (h : b.fresh.2.Covered H bs (l.map f))
    (hfg : ∀ x ∈ l, ∀ v, g x v ↔ ∃ t, f x (Function.update v ⟨b.supply⟩ t)) :
    b.Covered H bs (l.map g) := by
  have hAgree (v : Valuation) (t : Term) :
      AgreeBelow b.supply v (Function.update v ⟨b.supply⟩ t) := by
    intro x hx
    rw [Function.update_of_ne]
    rintro rfl
    exact Nat.lt_irrefl _ hx
  refine h.transfer (fun x hx hRefutes v hv hg => ?_) fun x hx r hr => ?_
  · obtain ⟨t, ht⟩ := (hfg x hx v).mp hg
    exact hRefutes _ ((hb.admits_congr (hAgree v t)).mp hv) ht
  · refine ⟨hr.fits, (Nat.le_succ _).trans hr.supply_le, fun v hv => ?_, fun v hv hg => ?_⟩
    · obtain ⟨hAdmits, hf⟩ := hr.sound v hv
      refine ⟨hAdmits, (hfg x hx v).mpr ⟨v ⟨b.supply⟩, ?_⟩⟩
      rwa [Function.update_eq_self]
    · obtain ⟨t, ht⟩ := (hfg x hx v).mp hg
      obtain ⟨v', hv', hNext⟩ := hr.complete _ ((hb.admits_congr (hAgree v t)).mp hv) ht
      exact ⟨v', hv', fun y hy => (hAgree v t y hy).trans (hNext y (Nat.lt_succ_of_lt hy))⟩

/-- Unification covers the equation of its terms. -/
theorem Fits.covered_unify (hb : b.Fits H) {t u : Term} (ht : t.Within H b.supply)
    (hu : u.Within H b.supply) :
    b.Covered H (b.unify t u).toList [fun v => t.replace v = u.replace v] := by
  unfold unify
  cases h : b.substitution.unify t u with
  | none => exact .skip (fun v hv => hb.acyclic.unify_eq_none h hv) .nil
  | some s =>
      obtain ⟨hGrows, hAdmits⟩ :=
        hb.acyclic.unify_eq_some (Term.built_hereditary _ _) hb.bindings_over ht hu h
      refine .keep ⟨⟨hGrows.acyclic hb.acyclic, hGrows.stays_over hb.bindings_over⟩, Nat.le_refl _,
        fun v hv => (hAdmits v).mp hv, fun v hv hEq => ?_⟩ .nil
      exact ⟨v, (hAdmits v).mpr ⟨hv, hEq⟩, fun _ _ => rfl⟩

/-! ### The answers of a covering -/

open Classical in
/-- The answer for a term on the branches that narrow by the condition, if there are any. -/
noncomputable def answer (H : Term → Prop) (b : Branch) (q : Term) (A : Condition) : Option Term :=
  if h : ∃ r, b.Narrows H r A then some (h.choose.reify q) else none

/-- The conditions determine the answers, condition by condition. -/
theorem Covered.map_reify (h : b.Covered H bs As) {q : Term} (hq : q.Within H b.supply) :
    bs.map (·.reify q) = As.filterMap (b.answer H q) := by
  induction h with
  | nil => rfl
  | @skip A bs As h _ ih =>
      have hNone : b.answer H q A = none := dif_neg fun ⟨r, hr⟩ => hr.not_refutes h
      rw [List.filterMap_cons_none hNone, ih]
  | @keep A r bs As h _ ih =>
      have hExists : ∃ r, b.Narrows H r A := ⟨r, h⟩
      have hSome : b.answer H q A = some (r.reify q) := by
        rw [answer, dif_pos hExists, h.reify_eq hExists.choose_spec hq]
      rw [List.filterMap_cons_some hSome, List.map_cons, ih]

/-- Conditions that can be met and leave a term one value each are answered with these values. -/
theorem Covered.map_reify_of_forces {α : Type} {l : List α} {f : α → Condition}
    (h : b.Covered H bs (l.map f)) {q : Term} {t : α → Term}
    (hMeets : ∀ x ∈ l, ∃ v, b.Admits v ∧ f x v) (hForces : ∀ x ∈ l, ∀ v, f x v → q.replace v = t x)
    (hGround : ∀ x ∈ l, (t x).vars = []) : bs.map (·.reify q) = l.map t := by
  induction l generalizing bs with
  | nil =>
      cases h
      rfl
  | cons x rest ih =>
      obtain ⟨⟨v, hv, hMet⟩, hMeets⟩ := List.forall_mem_cons.mp hMeets
      obtain ⟨hForcesHead, hForces⟩ := List.forall_mem_cons.mp hForces
      obtain ⟨hGroundHead, hGround⟩ := List.forall_mem_cons.mp hGround
      cases h with
      | skip hRefutes _ => exact absurd hMet (hRefutes v hv)
      | keep hNarrows hRest =>
          rw [List.map_cons, List.map_cons, ih hRest hMeets hForces hGround,
            hNarrows.reify_eq_of_forces hForcesHead hGroundHead]

/-- The same conditions in another order have the same answers in another order. -/
theorem Covered.reify_perm {bs' : List Branch} {As' : List Condition} (h : b.Covered H bs As)
    (h' : b.Covered H bs' As') (hPerm : As.Perm As') {q : Term} (hq : q.Within H b.supply) :
    (bs.map (·.reify q)).Perm (bs'.map (·.reify q)) := by
  rw [h.map_reify hq, h'.map_reify hq]
  exact hPerm.filterMap _

/-- A ground term is an instance of an answer exactly if some admitted valuation that meets one of
the conditions gives it to the term that was asked for. -/
theorem Covered.instance_iff (h : b.Covered H bs As) (hH : ∀ l, H l → ∀ k, l ≠ .placeholder k)
    {q t : Term} (hq : q.Within H b.supply) (ht : t.Ground) :
    (∃ v, b.Admits v ∧ (∃ A ∈ As, A v) ∧ q.replace v = t) ↔
      ∃ a ∈ bs.map (·.reify q), ∃ f, (∀ n, (f n).Ground) ∧ a.fill f = t := by
  have hWhole {r : Branch} {A : Condition} (hr : b.Narrows H r A) :
      (r.substitution.resolve q).Whole :=
    (Term.Built.resolve hr.fits.bindings_over (hq.mono hr.supply_le)).whole hH
  constructor
  · rintro ⟨v, hv, ⟨A, hA, hAv⟩, rfl⟩
    obtain ⟨r, hr, hNarrows⟩ := h.exists_narrows hA hv hAv
    obtain ⟨v', hv', hAgree⟩ := hNarrows.complete v hv hAv
    have hValue : (r.substitution.resolve q).replace v' = q.replace v := by
      rw [hv'.replace_resolve, hq.replace_eq hAgree]
    refine ⟨r.reify q, List.mem_map_of_mem hr, _, fun n => ?_,
      (Term.exists_fill_numbered (hWhole hNarrows) v').trans hValue⟩
    cases hVar : (r.substitution.resolve q).vars.eraseDups[n]? with
    | none => simp [Term.ground_iff, Term.leaves]
    | some x =>
        have hx := List.mem_eraseDups.mp (List.mem_of_getElem? hVar)
        exact Term.Ground.of_replace (hValue ▸ ht) hx
  · rintro ⟨_, hMem, f, _, rfl⟩
    obtain ⟨r, hr, rfl⟩ := List.mem_map.mp hMem
    obtain ⟨A, hA, hNarrows⟩ := h.narrows_of_mem hr
    have hAdmits := hNarrows.fits.acyclic.admits_resolve fun x =>
      f ((r.substitution.resolve q).vars.eraseDups.idxOf x)
    obtain ⟨hb, hAv⟩ := hNarrows.sound _ hAdmits
    refine ⟨_, hb, ⟨A, hA, hAv⟩, ?_⟩
    rw [← Term.replace_replace, ← Substitution.resolve_eq_replace]
    exact (Term.fill_numbered (hWhole hNarrows) f).symm

end Branch

end PageLogic
