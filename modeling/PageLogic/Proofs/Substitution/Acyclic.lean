import PageLogic.Proofs.Term.Replacement
import PageLogic.Substitution
/-!
Substitutions whose bindings lead nowhere in a circle. On them every bound variable stands for what
its binding stands for, and the terms that variables stand for make a valuation that the
substitution admits.
-/
namespace PageLogic.Substitution

/-- The valuation gives every bound variable the value of the term that it is bound to. -/
def Admits (s : Substitution) (v : Valuation) : Prop :=
  ∀ x t, s.lookup x = some t → v x = t.replace v

/-- Every binding leads to variables of lower rank. -/
def RankedBy (s : Substitution) (rank : Var → Nat) : Prop :=
  ∀ x t, s.lookup x = some t → ∀ y ∈ t.vars, rank y < rank x

/-- Bindings can be followed downward only, so that no variable leads back to itself. -/
def Acyclic (s : Substitution) : Prop :=
  ∃ rank, s.RankedBy rank

/-! ### One step along a binding -/

theorem lookup_without (s : Substitution) (x y : Var) :
    (s.without x).lookup y = if y = x then none else s.lookup y := by
  obtain ⟨bindings⟩ := s
  simp only [lookup, without]
  induction bindings with
  | nil => simp
  | cons b rest ih =>
      obtain ⟨z, t⟩ := b
      by_cases hz : z = x
      · subst hz
        rw [List.filter_cons_of_neg (by simp), ih]
        by_cases hy : y = z
        · simp [hy]
        · have hne : (y == z) = false := by simpa using hy
          simp [List.lookup_cons, hy, hne]
      · rw [List.filter_cons_of_pos (by simpa using hz), List.lookup_cons, List.lookup_cons, ih]
        by_cases hy : y = z
        · subst hy
          simp [hz]
        · have hne : (y == z) = false := by simpa using hy
          simp [hne]

theorem Admits.without {s : Substitution} {v : Valuation} (h : s.Admits v) (x : Var) :
    (s.without x).Admits v := by
  intro y t hy
  rw [lookup_without] at hy
  split at hy
  · cases hy
  · exact h y t hy

theorem walk_of_lookup {s : Substitution} {x : Var} {t : Term} (h : s.lookup x = some t) :
    s.walk (.var x) = (s.without x).walk t := by
  rw [walk]
  split <;> simp_all

theorem walk_of_unbound {s : Substitution} {x : Var} (h : s.lookup x = none) :
    s.walk (.var x) = .var x := by
  rw [walk]
  split <;> simp_all

theorem walk_of_not_isVar {s : Substitution} {t : Term} (h : t.isVar = false) : s.walk t = t := by
  cases t with
  | var x => simp [Term.isVar] at h
  | _ => rw [walk]; simp

theorem resolve_of_lookup {s : Substitution} {x : Var} {t : Term} (h : s.lookup x = some t) :
    s.resolve (.var x) = (s.without x).resolve t := by
  rw [resolve]
  split <;> simp_all

theorem resolve_of_unbound {s : Substitution} {x : Var} (h : s.lookup x = none) :
    s.resolve (.var x) = .var x := by
  rw [resolve]
  split <;> simp_all

theorem occurs_of_lookup {s : Substitution} {x y : Var} {t : Term} (h : s.lookup y = some t) :
    s.occurs x (.var y) = (s.without y).occurs x t := by
  rw [occurs]
  split <;> simp_all

theorem occurs_of_unbound {s : Substitution} {x y : Var} (h : s.lookup y = none) :
    s.occurs x (.var y) = (y == x) := by
  rw [occurs]
  split <;> simp_all

@[simp] theorem resolve_record (s : Substitution) (fields : List (String × Term)) :
    s.resolve (.record fields) = .record (fields.map fun p => (p.1, s.resolve p.2)) := by
  have hFields : ∀ fields, s.resolveFields fields = fields.map fun p => (p.1, s.resolve p.2) := by
    intro fields
    induction fields with
    | nil => simp [resolveFields]
    | cons p rest ih =>
        obtain ⟨k, t⟩ := p
        simp [resolveFields, ih]
  rw [resolve, hFields]

@[simp] theorem resolve_list (s : Substitution) (items : List Term) :
    s.resolve (.list items) = .list (items.map s.resolve) := by
  have hAll : ∀ items, s.resolveAll items = items.map s.resolve := by
    intro items
    induction items with
    | nil => simp [resolveAll]
    | cons t rest ih => simp [resolveAll, ih]
  rw [resolve, hAll]

@[simp] theorem occurs_record (s : Substitution) (x : Var) (fields : List (String × Term)) :
    s.occurs x (.record fields) = fields.any fun p => s.occurs x p.2 := by
  have hFields : ∀ fields, s.occursFields x fields = fields.any fun p => s.occurs x p.2 := by
    intro fields
    induction fields with
    | nil => simp [occursFields]
    | cons p rest ih =>
        obtain ⟨k, t⟩ := p
        simp [occursFields, ih]
  rw [occurs, hFields]

@[simp] theorem occurs_list (s : Substitution) (x : Var) (items : List Term) :
    s.occurs x (.list items) = items.any (s.occurs x) := by
  have hAny : ∀ items, s.occursAny x items = items.any (s.occurs x) := by
    intro items
    induction items with
    | nil => simp [occursAny]
    | cons t rest ih => simp [occursAny, ih]
  rw [occurs, hAny]

/-- What a resolved record or list holds is resolved. -/
theorem parts_resolve (s : Substitution) {t : Term} (ht : t.isVar = false) :
    (s.resolve t).parts = t.parts.map s.resolve := by
  cases t with
  | var x => cases ht
  | record fields => simp [Term.parts]
  | list items => simp [Term.parts]
  | _ => simp [resolve, Term.parts]

/-- Induction along bindings and into terms, which is how `resolve` and `occurs` go. -/
@[elab_as_elim]
theorem follow {motive : Substitution → Term → Prop}
    (bound : ∀ s x t, s.lookup x = some t → motive (s.without x) t → motive s (.var x))
    (unbound : ∀ s x, s.lookup x = none → motive s (.var x))
    (placeholder : ∀ s n, motive s (.placeholder n))
    (str : ∀ s text, motive s (.str text))
    (int : ∀ s i, motive s (.int i))
    (bool : ∀ s b, motive s (.bool b))
    (element : ∀ s e, motive s (.element e))
    (record : ∀ s fields, (∀ p ∈ fields, motive s p.2) → motive s (.record fields))
    (list : ∀ s items, (∀ t ∈ items, motive s t) → motive s (.list items))
    (s : Substitution) (t : Term) : motive s t := by
  induction hn : s.length using Nat.strong_induction_on generalizing s t with
  | _ n ih =>
      subst hn
      induction t with
      | var x =>
          cases h : s.lookup x with
          | none => exact unbound s x h
          | some t => exact bound s x t h (ih _ (length_without_lt h) _ _ rfl)
      | record fields hFields => exact record s fields hFields
      | list items hItems => exact list s items hItems
      | placeholder n => exact placeholder s n
      | str text => exact str s text
      | int i => exact int s i
      | bool b => exact bool s b
      | element e => exact element s e

/-! ### What holds of every substitution -/

/-- Walking does not change the value of a term under an admitted valuation. -/
theorem Admits.replace_walk {s : Substitution} {v : Valuation} (h : s.Admits v) (t : Term) :
    (s.walk t).replace v = t.replace v := by
  induction s, t using follow with
  | bound s x t hx ih => rw [walk_of_lookup hx, ih (h.without x), Term.replace_var, h x t hx]
  | unbound s x hx => rw [walk_of_unbound hx]
  | _ => rw [walk_of_not_isVar rfl]

/-- Nor does resolving. -/
theorem Admits.replace_resolve {s : Substitution} {v : Valuation} (h : s.Admits v) (t : Term) :
    (s.resolve t).replace v = t.replace v := by
  induction s, t using follow with
  | bound s x t hx ih => rw [resolve_of_lookup hx, ih (h.without x), Term.replace_var, h x t hx]
  | unbound s x hx => rw [resolve_of_unbound hx]
  | record s fields ih =>
      simp only [resolve_record, Term.replace_record, List.map_map, Term.record.injEq]
      exact List.map_congr_left fun p hp => by simp [ih p hp h]
  | list s items ih =>
      simp only [resolve_list, Term.replace_list, List.map_map, Term.list.injEq]
      exact List.map_congr_left fun t ht => ih t ht h
  | _ => simp [resolve]

/-- A variable occurs in a term exactly if it is left when the term is resolved. -/
theorem occurs_iff (s : Substitution) (x : Var) (t : Term) :
    s.occurs x t = true ↔ x ∈ (s.resolve t).vars := by
  induction s, t using follow with
  | bound s y t hy ih => rw [occurs_of_lookup hy, resolve_of_lookup hy, ih]
  | unbound s y hy =>
      rw [occurs_of_unbound hy, resolve_of_unbound hy, Term.vars_var, List.mem_singleton, beq_iff_eq]
      exact eq_comm
  | record s fields ih =>
      simp only [occurs_record, resolve_record, Term.vars_record, List.any_eq_true,
        List.mem_flatMap, List.mem_map]
      constructor
      · rintro ⟨p, hp, hx⟩
        exact ⟨_, ⟨p, hp, rfl⟩, (ih p hp).mp hx⟩
      · rintro ⟨_, ⟨p, hp, rfl⟩, hx⟩
        exact ⟨p, hp, (ih p hp).mpr hx⟩
  | list s items ih =>
      simp only [occurs_list, resolve_list, Term.vars_list, List.any_eq_true, List.mem_flatMap,
        List.mem_map]
      constructor
      · rintro ⟨t, ht, hx⟩
        exact ⟨_, ⟨t, ht, rfl⟩, (ih t ht).mp hx⟩
      · rintro ⟨_, ⟨t, ht, rfl⟩, hx⟩
        exact ⟨t, ht, (ih t ht).mpr hx⟩
  | _ => rw [occurs, resolve] <;> simp [Term.vars]

/-- Resolving replaces every variable by what it resolves to. -/
theorem resolve_eq_replace (s : Substitution) (t : Term) :
    s.resolve t = t.replace fun x => s.resolve (.var x) := by
  induction t with
  | var x => rfl
  | record fields ih =>
      simp only [resolve_record, Term.replace_record, Term.record.injEq]
      exact List.map_congr_left fun p hp => by simp [← ih p hp]
  | list items ih =>
      simp only [resolve_list, Term.replace_list, Term.list.injEq]
      exact List.map_congr_left fun t ht => ih t ht
  | _ => simp [resolve, Term.replace]

/-- Each binding is entered at most once on a path, which bounds the depth of a resolved term. -/
theorem withinDepth_resolve {k : Nat} (s : Substitution) (t : Term)
    (hs : ∀ x u, s.lookup x = some u → u.WithinDepth k) {m : Nat} (ht : t.WithinDepth m) :
    (s.resolve t).WithinDepth (m + s.length * k) := by
  induction s, t using follow generalizing m with
  | bound s x t hx ih =>
      have hRest : ∀ y u, (s.without x).lookup y = some u → u.WithinDepth k := by
        intro y u hy
        rw [lookup_without] at hy
        split at hy
        · cases hy
        · exact hs y u hy
      rw [resolve_of_lookup hx]
      refine (ih hRest (hs x t hx)).mono ?_
      have hLess := Nat.mul_le_mul_right k (length_without_lt hx)
      rw [Nat.succ_mul] at hLess
      omega
  | unbound s x hx =>
      rw [resolve_of_unbound hx]
      exact ht.mono (by omega)
  | record s fields ih =>
      obtain ⟨m, rfl⟩ := ht.exists_succ
      rw [Nat.add_right_comm]
      intro u hu
      rw [parts_resolve s rfl, List.mem_map] at hu
      obtain ⟨_, hMem, rfl⟩ := hu
      obtain ⟨p, hp, rfl⟩ := List.mem_map.mp hMem
      exact ih p hp hs (ht p.2 hMem)
  | list s items ih =>
      obtain ⟨m, rfl⟩ := ht.exists_succ
      rw [Nat.add_right_comm]
      intro u hu
      rw [parts_resolve s rfl, List.mem_map] at hu
      obtain ⟨t, hMem, rfl⟩ := hu
      exact ih t hMem hs (ht t hMem)
  | _ => rw [resolve]; exact ht.mono (by omega); all_goals simp

/-! ### Acyclic substitutions -/

theorem RankedBy.without {s : Substitution} {rank : Var → Nat} (h : s.RankedBy rank) (x : Var) :
    (s.without x).RankedBy rank := by
  intro y t hy
  rw [lookup_without] at hy
  split at hy
  · cases hy
  · exact h y t hy

/-- Below the rank of a variable it makes no difference whether its binding is there. -/
theorem lookup_without_of_rank_lt (s : Substitution) {rank : Var → Nat} {x y : Var}
    (h : rank y < rank x) : (s.without x).lookup y = s.lookup y := by
  rw [lookup_without, if_neg]
  rintro rfl
  exact Nat.lt_irrefl _ h

/-- Walking from a term looks only at variables of the ranks that its own have, and below. -/
theorem RankedBy.walk_eq {s r : Substitution} {rank : Var → Nat} (h : s.RankedBy rank) {n : Nat}
    (hAgree : ∀ y, rank y < n → r.lookup y = s.lookup y) {t : Term}
    (ht : ∀ y ∈ t.vars, rank y < n) : r.walk t = s.walk t := by
  induction n using Nat.strong_induction_on generalizing s r t with
  | _ n ih =>
      cases t with
      | var x =>
          have hx : rank x < n := ht x (by simp)
          cases hLookup : s.lookup x with
          | none => rw [walk_of_unbound hLookup, walk_of_unbound (by rw [hAgree x hx, hLookup])]
          | some u =>
              rw [walk_of_lookup hLookup, walk_of_lookup (by rw [hAgree x hx, hLookup])]
              refine ih (rank x) hx (h.without x) (fun y hy => ?_) (h x u hLookup)
              rw [lookup_without_of_rank_lt _ hy, lookup_without_of_rank_lt _ hy,
                hAgree y (hy.trans hx)]
      | _ => rw [walk_of_not_isVar rfl, walk_of_not_isVar rfl]

/-- Resolving, too, looks only at variables of the ranks that the term's own have, and below. -/
theorem RankedBy.resolve_eq {s r : Substitution} {rank : Var → Nat} (h : s.RankedBy rank) {n : Nat}
    (hAgree : ∀ y, rank y < n → r.lookup y = s.lookup y) {t : Term}
    (ht : ∀ y ∈ t.vars, rank y < n) : r.resolve t = s.resolve t := by
  induction n using Nat.strong_induction_on generalizing s r t with
  | _ n ih =>
      rw [resolve_eq_replace r, resolve_eq_replace s]
      refine Term.replace_congr fun x hMem => ?_
      have hx : rank x < n := ht x hMem
      cases hLookup : s.lookup x with
      | none => rw [resolve_of_unbound hLookup, resolve_of_unbound (by rw [hAgree x hx, hLookup])]
      | some u =>
          rw [resolve_of_lookup hLookup, resolve_of_lookup (by rw [hAgree x hx, hLookup])]
          refine ih (rank x) hx (h.without x) (fun y hy => ?_) (h x u hLookup)
          rw [lookup_without_of_rank_lt _ hy, lookup_without_of_rank_lt _ hy,
            hAgree y (hy.trans hx)]

namespace Acyclic

variable {s : Substitution}

/-- A bound variable walks where its binding walks. -/
theorem walk_bound (h : s.Acyclic) {x : Var} {t : Term} (hx : s.lookup x = some t) :
    s.walk (.var x) = s.walk t := by
  obtain ⟨rank, hRank⟩ := h
  rw [walk_of_lookup hx]
  exact hRank.walk_eq (fun y hy => lookup_without_of_rank_lt s hy) (hRank x t hx)

/-- A bound variable resolves to what its binding resolves to. -/
theorem resolve_bound (h : s.Acyclic) {x : Var} {t : Term} (hx : s.lookup x = some t) :
    s.resolve (.var x) = s.resolve t := by
  obtain ⟨rank, hRank⟩ := h
  rw [resolve_of_lookup hx]
  exact hRank.resolve_eq (fun y hy => lookup_without_of_rank_lt s hy) (hRank x t hx)

/-- A walk that ends at a variable ends at an unbound one. -/
theorem lookup_of_walk_eq_var (h : s.Acyclic) {t : Term} {x : Var} (hWalk : s.walk t = .var x) :
    s.lookup x = none := by
  obtain ⟨rank, hRank⟩ := h
  have hVar (n : Nat) : ∀ y, rank y < n → s.walk (.var y) = .var x → s.lookup x = none := by
    induction n with
    | zero => exact fun y hy => absurd hy (Nat.not_lt_zero _)
    | succ n ih =>
        intro y hy hWalk
        cases hLookup : s.lookup y with
        | none =>
            rw [walk_of_unbound hLookup, Term.var.injEq] at hWalk
            rwa [← hWalk]
        | some u =>
            rw [walk_bound ⟨rank, hRank⟩ hLookup] at hWalk
            cases u with
            | var z => exact ih z (by have := hRank y _ hLookup z (by simp); omega) hWalk
            | _ =>
                rw [walk_of_not_isVar rfl] at hWalk
                cases hWalk
  cases t with
  | var y => exact hVar _ y (Nat.lt_succ_self _) hWalk
  | _ =>
      rw [walk_of_not_isVar rfl] at hWalk
      cases hWalk

/-- The values of the unbound variables may be chosen at will. -/
theorem admits_resolve (h : s.Acyclic) (f : Valuation) :
    s.Admits fun x => (s.resolve (.var x)).replace f := by
  intro x t hx
  show (s.resolve (.var x)).replace f = _
  rw [h.resolve_bound hx, resolve_eq_replace, Term.replace_replace]

theorem empty : Substitution.empty.Acyclic :=
  ⟨fun _ => 0, fun x t hx => by simp at hx⟩

/-- Binding an unbound variable to a term in which it does not occur makes no circle. -/
theorem push (h : s.Acyclic) {x : Var} {t : Term} (hx : s.lookup x = none)
    (hOccurs : s.occurs x t = false) : (s.push x t).Acyclic := by
  have hAcyclic := h
  obtain ⟨rank, hRank⟩ := h
  let bound := (t.vars.map rank).sum + 1
  -- What depends on `x` is lifted above everything that `t` is made of.
  refine ⟨fun y => if s.occurs x (.var y) then rank y + bound else rank y, ?_⟩
  intro y u hy z hz
  rw [lookup_push] at hy
  split at hy
  · next hEq =>
      obtain rfl : t = u := by simpa using hy
      subst hEq
      have hSum : rank z ≤ (t.vars.map rank).sum := List.le_sum_of_mem (List.mem_map_of_mem hz)
      have hz' : s.occurs y (.var z) = false := by
        rw [Bool.eq_false_iff, ne_eq, occurs_iff] at hOccurs ⊢
        intro hMem
        apply hOccurs
        rw [resolve_eq_replace, Term.vars_replace]
        exact List.mem_flatMap.mpr ⟨z, hz, hMem⟩
      simp only [hz', occurs_of_unbound hx, beq_self_eq_true, ↓reduceIte, Bool.false_eq_true, bound]
      omega
  · have hLt : rank z < rank y := hRank y u hy z hz
    have hUp : s.occurs x (.var z) = true → s.occurs x (.var y) = true := by
      rw [occurs_iff, occurs_iff, hAcyclic.resolve_bound hy, resolve_eq_replace s u,
        Term.vars_replace]
      exact fun hMem => List.mem_flatMap.mpr ⟨z, hz, hMem⟩
    by_cases hOccursZ : s.occurs x (.var z) = true
    · simp only [hOccursZ, hUp hOccursZ, ↓reduceIte]
      omega
    · simp only [hOccursZ, Bool.false_eq_true, ↓reduceIte]
      split <;> omega

end Acyclic

end PageLogic.Substitution
