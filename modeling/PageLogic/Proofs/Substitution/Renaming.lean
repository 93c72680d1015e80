import PageLogic.Binding
import PageLogic.Proofs.Substitution.Unify
import PageLogic.Proofs.Term.Numbering
/-!
Renaming variables. Which variables a substitution is about does not matter: under an injective
renaming, walks, unification and reified terms stay the same up to that renaming, and reified terms,
which have no variables, stay the same altogether.
-/
namespace PageLogic

/-! ### Terms -/

namespace Term

/-- The term with its variables renamed. -/
def rename (f : Var → Var) (t : Term) : Term :=
  t.replace fun x => .var (f x)

variable {f g : Var → Var} {t : Term}

@[simp] theorem rename_var (f : Var → Var) (x : Var) : (var x).rename f = .var (f x) := rfl

@[simp] theorem rename_record (f : Var → Var) (fields : List (String × Term)) :
    (record fields).rename f = .record (fields.map fun p => (p.1, p.2.rename f)) :=
  replace_record _ _

@[simp] theorem rename_list (f : Var → Var) (items : List Term) :
    (list items).rename f = .list (items.map (rename f)) :=
  replace_list _ _

theorem rename_of_vars_eq_nil (h : t.vars = []) (f : Var → Var) : t.rename f = t :=
  replace_of_vars_eq_nil h _

theorem rename_congr (h : ∀ x ∈ t.vars, f x = g x) : t.rename f = t.rename g :=
  replace_congr fun x hx => by rw [h x hx]

/-- Renaming what is put in place of the variables. -/
theorem rename_replace (f : Var → Var) (t : Term) (v : Valuation) :
    (t.replace v).rename f = t.replace fun x => (v x).rename f :=
  replace_replace _ _ t

@[simp] theorem isVar_rename (f : Var → Var) (t : Term) : (t.rename f).isVar = t.isVar := by
  cases t <;> rfl

theorem weight_rename (f : Var → Var) (t : Term) : (t.rename f).weight = t.weight := by
  induction t with
  | record fields ih =>
      rw [rename_record, weight_record, weight_record, List.map_map]
      congr 2
      exact List.map_congr_left fun p hp => ih p hp
  | list items ih =>
      rw [rename_list, weight_list, weight_list, List.map_map]
      congr 2
      exact List.map_congr_left fun t ht => ih t ht
  | _ => rfl

theorem numbered_rename_of_injective (hf : Function.Injective f) (t : Term) :
    (t.rename f).numbered = t.numbered :=
  numbered_rename fun _ _ _ _ h => hf h

theorem rename_injective (hf : Function.Injective f) : Function.Injective (rename f) := by
  have : Nonempty Var := ⟨⟨0⟩⟩
  intro t u h
  have hBack (t : Term) : (t.rename f).replace (fun x => .var (Function.invFun f x)) = t := by
    rw [rename, replace_replace]
    conv_rhs => rw [← replace_self t]
    exact replace_congr fun x _ => by rw [replace_var, Function.leftInverse_invFun hf]
  rw [← hBack t, h, hBack u]

end Term

/-! ### Substitutions -/

namespace Substitution

/-- The substitution with its variables renamed, those that are bound and those they are bound to. -/
def rename (f : Var → Var) (s : Substitution) : Substitution :=
  ⟨s.bindings.map fun p => (f p.1, p.2.rename f)⟩

variable {f g : Var → Var} {s : Substitution} {t u : Term} {x : Var}

theorem rename_congr {P : Term → Prop} (hOver : s.Over P)
    (h : ∀ t, P t → t.rename f = t.rename g) : s.rename f = s.rename g := by
  unfold rename
  congr 1
  refine List.map_congr_left fun p hp => ?_
  obtain ⟨hVar, hTerm⟩ := hOver p hp
  rw [h _ hTerm, Term.var.inj (h _ hVar)]

theorem lookup_rename (hf : Function.Injective f) (s : Substitution) (x : Var) :
    (s.rename f).lookup (f x) = (s.lookup x).map (Term.rename f) := by
  obtain ⟨bindings⟩ := s
  simp only [lookup, rename]
  induction bindings with
  | nil => rfl
  | cons p rest ih =>
      obtain ⟨y, t⟩ := p
      rw [List.map_cons, List.lookup_cons, List.lookup_cons, ih]
      by_cases h : x = y
      · simp [h]
      · have hNe : (x == y) = false := by simpa using h
        have hNe' : (f x == f y) = false := by simpa using hf.ne h
        simp [hNe, hNe']

theorem without_rename (hf : Function.Injective f) (s : Substitution) (x : Var) :
    (s.rename f).without (f x) = (s.without x).rename f := by
  unfold without rename
  rw [List.filter_map]
  congr 2
  refine List.filter_congr fun p _ => ?_
  by_cases h : p.1 = x
  · simp [h]
  · have hNe : f p.1 ≠ f x := hf.ne h
    rw [Function.comp_apply, bne_iff_ne.mpr h, bne_iff_ne.mpr hNe]

theorem walk_rename (hf : Function.Injective f) (s : Substitution) (t : Term) :
    (s.rename f).walk (t.rename f) = (s.walk t).rename f := by
  induction s, t using follow with
  | bound s x t hx ih =>
      have hBound : (s.rename f).lookup (f x) = some (t.rename f) := by
        rw [lookup_rename hf, hx, Option.map_some]
      rw [Term.rename_var, walk_of_lookup hBound, walk_of_lookup hx, without_rename hf, ih]
  | unbound s x hx =>
      have hUnbound : (s.rename f).lookup (f x) = none := by
        rw [lookup_rename hf, hx, Option.map_none]
      rw [Term.rename_var, walk_of_unbound hUnbound, walk_of_unbound hx, Term.rename_var]
  | _ =>
      rw [walk_of_not_isVar (by rw [Term.isVar_rename]; rfl), walk_of_not_isVar rfl]

theorem resolve_rename (hf : Function.Injective f) (s : Substitution) (t : Term) :
    (s.rename f).resolve (t.rename f) = (s.resolve t).rename f := by
  induction s, t using follow with
  | bound s x t hx ih =>
      have hBound : (s.rename f).lookup (f x) = some (t.rename f) := by
        rw [lookup_rename hf, hx, Option.map_some]
      rw [Term.rename_var, resolve_of_lookup hBound, resolve_of_lookup hx, without_rename hf, ih]
  | unbound s x hx =>
      have hUnbound : (s.rename f).lookup (f x) = none := by
        rw [lookup_rename hf, hx, Option.map_none]
      rw [Term.rename_var, resolve_of_unbound hUnbound, resolve_of_unbound hx, Term.rename_var]
  | record s fields ih =>
      simp only [Term.rename_record, resolve_record, List.map_map, Term.record.injEq]
      exact List.map_congr_left fun p hp => by simp [ih p hp]
  | list s items ih =>
      simp only [Term.rename_list, resolve_list, List.map_map, Term.list.injEq]
      exact List.map_congr_left fun t ht => ih t ht
  | _ => simp [resolve, Term.rename, Term.replace]

theorem occurs_rename (hf : Function.Injective f) (s : Substitution) (x : Var) (t : Term) :
    (s.rename f).occurs (f x) (t.rename f) = s.occurs x t := by
  rw [Bool.eq_iff_iff, occurs_iff, occurs_iff, resolve_rename hf, Term.rename, Term.vars_replace,
    List.mem_flatMap]
  constructor
  · rintro ⟨y, hy, hEq⟩
    rw [Term.vars_var, List.mem_singleton] at hEq
    rwa [hf hEq]
  · exact fun h => ⟨x, h, List.mem_singleton_self _⟩

theorem weight_rename (f : Var → Var) (s : Substitution) : (s.rename f).weight = s.weight := by
  rw [weight_eq, weight_eq, rename, List.map_map]
  congr 1
  exact List.map_congr_left fun p _ => p.2.weight_rename f

theorem length_rename (f : Var → Var) (s : Substitution) : (s.rename f).length = s.length :=
  List.length_map ..

theorem reach_rename (f : Var → Var) (s : Substitution) (t u : Term) :
    (s.rename f).reach (t.rename f) (u.rename f) = s.reach t u := by
  simp only [reach, weight_rename, length_rename, Term.weight_rename]

/-! ### Unification -/

/-- The outcome of the attempt with its variables renamed. -/
def Attempt.rename (f : Var → Var) : Attempt → Attempt
  | .unified s => .unified (s.rename f)
  | .clash => .clash
  | .tooDeep => .tooDeep

/-- Renamed terms are unified as the terms themselves, up to the renaming. -/
def Renames (f : Var → Var) (step : Substitution → Term → Term → Attempt) : Prop :=
  ∀ s t u, step (s.rename f) (t.rename f) (u.rename f) = (step s t u).rename f

theorem Attempt.rename_andThen {a : Attempt} {h h' : Substitution → Attempt}
    (hh : ∀ s, h' (s.rename f) = (h s).rename f) :
    (a.rename f).andThen h' = (a.andThen h).rename f := by
  cases a with
  | unified s => exact hh s
  | clash | tooDeep => rfl

theorem Renames.unifyAll {step : Substitution → Term → Term → Attempt} (h : Renames f step)
    (s : Substitution) (ts us : List Term) :
    unifyAll step (s.rename f) (ts.map (Term.rename f)) (us.map (Term.rename f)) =
      (unifyAll step s ts us).rename f := by
  induction ts generalizing s us with
  | nil => cases us <;> rfl
  | cons t ts ih =>
      cases us with
      | nil => rfl
      | cons u us =>
          rw [List.map_cons, List.map_cons, Substitution.unifyAll, Substitution.unifyAll, h]
          exact Attempt.rename_andThen fun s => ih s us

theorem Renames.unifyFields {step : Substitution → Term → Term → Attempt} (h : Renames f step)
    (s : Substitution) (fs gs : List (String × Term)) :
    unifyFields step (s.rename f) (fs.map fun p => (p.1, p.2.rename f))
        (gs.map fun p => (p.1, p.2.rename f)) =
      (unifyFields step s fs gs).rename f := by
  induction fs generalizing s gs with
  | nil => cases gs <;> rfl
  | cons p fs ih =>
      cases gs with
      | nil => rfl
      | cons q gs =>
          obtain ⟨k, t⟩ := p
          obtain ⟨l, u⟩ := q
          rw [List.map_cons, List.map_cons, Substitution.unifyFields, Substitution.unifyFields]
          by_cases hKey : k = l
          · rw [if_pos hKey, if_pos hKey, h]
            exact Attempt.rename_andThen fun s => ih s gs
          · rw [if_neg hKey, if_neg hKey]
            rfl

theorem extend_rename (hf : Function.Injective f) (s : Substitution) (x : Var) (t : Term) :
    (s.rename f).extend (f x) (t.rename f) = (s.extend x t).map (rename f) := by
  unfold extend
  rw [occurs_rename hf]
  cases s.occurs x t <;> rfl

theorem renames_unifyWithin (hf : Function.Injective f) (depth : Nat) :
    Renames f (unifyWithin depth) := by
  induction depth with
  | zero => exact fun _ _ _ => rfl
  | succ depth ih =>
      intro s t u
      rw [unifyWithin, unifyWithin, walk_rename hf, walk_rename hf]
      generalize s.walk t = v
      generalize s.walk u = w
      have hExtend (x : Var) (t : Term) : Attempt.ofOption ((s.rename f).extend (f x) (t.rename f)) =
          (Attempt.ofOption (s.extend x t)).rename f := by
        rw [extend_rename hf]
        cases s.extend x t <;> rfl
      have hLeft (x : Var) := hExtend x w
      have hRight (x : Var) := hExtend x v
      have hSame : (if v.rename f = w.rename f then .unified (s.rename f) else .clash) =
          (if v = w then Attempt.unified s else .clash).rename f := by
        by_cases h : v = w
        · rw [if_pos h, if_pos (congrArg _ h)]
          rfl
        · rw [if_neg h, if_neg ((Term.rename_injective hf).ne h)]
          rfl
      cases v with
      | var x =>
          cases w with
          | var y =>
              by_cases h : x = y
              · subst h
                simp only [Term.rename_var, ↓reduceIte]
                rfl
              · have hNe : f x ≠ f y := hf.ne h
                simp only [Term.rename_var, h, hNe, ↓reduceIte]
                exact hLeft x
          | _ => exact hLeft x
      | record fs =>
          cases w with
          | var y => exact hRight y
          | record gs =>
              simp only [Term.rename_record]
              exact ih.unifyFields s fs gs
          | _ => exact hSame
      | list ts =>
          cases w with
          | var y => exact hRight y
          | list us =>
              simp only [Term.rename_list]
              exact ih.unifyAll s ts us
          | _ => exact hSame
      | _ =>
          cases w with
          | var y => exact hRight y
          | _ => exact hSame

/-- Unifying does not depend on which variables there are. -/
theorem unify_rename (hf : Function.Injective f) (s : Substitution) (t u : Term) :
    (s.rename f).unify (t.rename f) (u.rename f) = (s.unify t u).map (rename f) := by
  rw [unify, unify, reach_rename, renames_unifyWithin hf]
  cases unifyWithin (s.reach t u) s t u <;> rfl

/-- Nor does what an answer shows. -/
theorem reify_rename (hf : Function.Injective f) (s : Substitution) (t : Term) :
    (s.rename f).reify (t.rename f) = s.reify t := by
  rw [reify, reify, resolve_rename hf, Term.numbered_rename_of_injective hf]

end Substitution

/-- What is known of an argument, with its variables renamed. -/
def Binding.rename (f : Var → Var) : Binding → Binding
  | .grounded t => .grounded (t.rename f)
  | .fresh => .fresh

theorem Binding.of_rename {f : Var → Var} (hf : Function.Injective f) (s : Substitution) (t : Term) :
    Binding.of (s.rename f) (t.rename f) = (Binding.of s t).rename f := by
  rw [Binding.of, Binding.of, Substitution.walk_rename hf]
  cases s.walk t <;> rfl

end PageLogic
