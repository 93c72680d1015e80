import PageLogic.Term
import Mathlib.Algebra.Order.BigOperators.Group.List
import Mathlib.Algebra.Order.Ring.Nat
import Mathlib.Data.List.Basic
/-!
Replacing the variables of a term. A replacement is read as a valuation too: it gives every
variable a value, and `Term.replace` is then the value of a term.
-/
namespace PageLogic

/-- A value for every variable. -/
abbrev Valuation := Var → Term

namespace Term

/-- Induction over terms. A record or a list is reached from what it holds. -/
@[elab_as_elim, induction_eliminator]
theorem induct {motive : Term → Prop}
    (var : ∀ x, motive (.var x))
    (placeholder : ∀ n, motive (.placeholder n))
    (str : ∀ s, motive (.str s))
    (int : ∀ i, motive (.int i))
    (bool : ∀ b, motive (.bool b))
    (element : ∀ e, motive (.element e))
    (record : ∀ fields, (∀ f ∈ fields, motive f.2) → motive (.record fields))
    (list : ∀ items, (∀ t ∈ items, motive t) → motive (.list items))
    (t : Term) : motive t :=
  Term.rec (motive_1 := motive)
    (motive_2 := fun fields => ∀ f ∈ fields, motive f.2)
    (motive_3 := fun items => ∀ t ∈ items, motive t)
    (motive_4 := fun f => motive f.2)
    var placeholder str int bool element record list
    (by simp) (fun _ _ hf hRest => List.forall_mem_cons.mpr ⟨hf, hRest⟩)
    (by simp) (fun _ _ ht hRest => List.forall_mem_cons.mpr ⟨ht, hRest⟩)
    (fun _ _ h => h) t

/-! ### Records and lists at once -/

theorem replaceFields_eq (f : Valuation) (fields : List (String × Term)) :
    replaceFields f fields = fields.map fun p => (p.1, p.2.replace f) := by
  induction fields with
  | nil => rfl
  | cons p rest ih => simp [replaceFields, ih]

theorem replaceAll_eq (f : Valuation) (items : List Term) :
    replaceAll f items = items.map (replace f) := by
  induction items with
  | nil => rfl
  | cons t rest ih => simp [replaceAll, ih]

theorem varsFields_eq (fields : List (String × Term)) :
    varsFields fields = fields.flatMap fun p => p.2.vars := by
  induction fields with
  | nil => rfl
  | cons p rest ih => simp [varsFields, ih]

theorem varsAll_eq (items : List Term) : varsAll items = items.flatMap vars := by
  induction items with
  | nil => rfl
  | cons t rest ih => simp [varsAll, ih]

theorem weightFields_eq (fields : List (String × Term)) :
    weightFields fields = (fields.map fun p => p.2.weight).sum := by
  induction fields with
  | nil => rfl
  | cons p rest ih => simp [weightFields, ih]

theorem weightAll_eq (items : List Term) : weightAll items = (items.map weight).sum := by
  induction items with
  | nil => rfl
  | cons t rest ih => simp [weightAll, ih]

@[simp] theorem replace_var (f : Valuation) (x : Var) : (var x).replace f = f x := rfl

@[simp] theorem replace_record (f : Valuation) (fields : List (String × Term)) :
    (record fields).replace f = record (fields.map fun p => (p.1, p.2.replace f)) := by
  rw [replace, replaceFields_eq]

@[simp] theorem replace_list (f : Valuation) (items : List Term) :
    (list items).replace f = list (items.map (replace f)) := by
  rw [replace, replaceAll_eq]

@[simp] theorem vars_var (x : Var) : (var x).vars = [x] := rfl

@[simp] theorem vars_record (fields : List (String × Term)) :
    (record fields).vars = fields.flatMap fun p => p.2.vars := by
  rw [vars, varsFields_eq]

@[simp] theorem vars_list (items : List Term) : (list items).vars = items.flatMap vars := by
  rw [vars, varsAll_eq]

@[simp] theorem weight_record (fields : List (String × Term)) :
    (record fields).weight = (fields.map fun p => p.2.weight).sum + 1 := by
  rw [weight, weightFields_eq]

@[simp] theorem weight_list (items : List Term) :
    (list items).weight = (items.map weight).sum + 1 := by
  rw [weight, weightAll_eq]

/-! ### Parts -/

/-- What a record or a list holds. -/
def parts : Term → List Term
  | .record fields => fields.map (·.2)
  | .list items => items
  | _ => []

theorem field_mem_parts {fields : List (String × Term)} {p : String × Term} (hp : p ∈ fields) :
    p.2 ∈ (record fields).parts :=
  List.mem_map_of_mem hp

theorem item_mem_parts {items : List Term} {t : Term} (ht : t ∈ items) :
    t ∈ (list items).parts := ht

/-- A property that passes from a term to everything it holds. -/
def Hereditary (P : Term → Prop) : Prop :=
  ∀ t, P t → ∀ u ∈ t.parts, P u

theorem mem_vars_of_mem_parts {t u : Term} {x : Var} (hu : u ∈ t.parts) (hx : x ∈ u.vars) :
    x ∈ t.vars := by
  cases t with
  | record fields =>
      obtain ⟨p, hp, rfl⟩ := List.mem_map.mp hu
      rw [vars_record, List.mem_flatMap]
      exact ⟨p, hp, hx⟩
  | list items =>
      rw [vars_list, List.mem_flatMap]
      exact ⟨u, hu, hx⟩
  | _ => simp [parts] at hu

/-! ### Laws of replacement -/

/-- Only the values of variables that occur count. -/
theorem replace_congr {f g : Valuation} {t : Term} (h : ∀ x ∈ t.vars, f x = g x) :
    t.replace f = t.replace g := by
  induction t with
  | var x => exact h x (by simp)
  | record fields ih =>
      simp only [replace_record, record.injEq]
      refine List.map_congr_left fun p hp => ?_
      rw [ih p hp fun x hx => h x (mem_vars_of_mem_parts (field_mem_parts hp) hx)]
  | list items ih =>
      simp only [replace_list, list.injEq]
      refine List.map_congr_left fun t ht => ?_
      exact ih t ht fun x hx => h x (mem_vars_of_mem_parts (item_mem_parts ht) hx)
  | _ => rfl

/-- Replacements that give a term the same value agree on its variables. -/
theorem eq_of_replace_eq {f g : Valuation} {t : Term} (h : t.replace f = t.replace g) :
    ∀ x ∈ t.vars, f x = g x := by
  induction t with
  | var x => simpa using h
  | record fields ih =>
      intro x hx
      simp only [vars_record, List.mem_flatMap] at hx
      obtain ⟨p, hp, hx⟩ := hx
      simp only [replace_record, record.injEq, List.map_inj_left, Prod.mk.injEq, true_and] at h
      exact ih p hp (h p hp) x hx
  | list items ih =>
      intro x hx
      simp only [vars_list, List.mem_flatMap] at hx
      obtain ⟨t, ht, hx⟩ := hx
      simp only [replace_list, list.injEq, List.map_inj_left] at h
      exact ih t ht (h t ht) x hx
  | _ => simp [vars]

@[simp] theorem replace_self (t : Term) : t.replace .var = t := by
  induction t with
  | var x => rfl
  | record fields ih =>
      rw [replace_record, record.injEq]
      conv_rhs => rw [← List.map_id fields]
      exact List.map_congr_left fun p hp => by simp [ih p hp]
  | list items ih =>
      rw [replace_list, list.injEq]
      conv_rhs => rw [← List.map_id items]
      exact List.map_congr_left fun t ht => by simp [ih t ht]
  | _ => rfl

theorem replace_replace (f g : Valuation) (t : Term) :
    (t.replace f).replace g = t.replace fun x => (f x).replace g := by
  induction t with
  | var x => rfl
  | record fields ih =>
      simp only [replace_record, List.map_map, record.injEq]
      exact List.map_congr_left fun p hp => by simp [ih p hp]
  | list items ih =>
      simp only [replace_list, List.map_map, list.injEq]
      exact List.map_congr_left fun t ht => ih t ht
  | _ => rfl

theorem vars_replace (f : Valuation) (t : Term) :
    (t.replace f).vars = t.vars.flatMap fun x => (f x).vars := by
  induction t with
  | var x => simp
  | record fields ih =>
      simp only [replace_record, vars_record, List.flatMap_map, List.flatMap_assoc]
      exact List.flatMap_congr fun p hp => ih p hp
  | list items ih =>
      simp only [replace_list, vars_list, List.flatMap_map, List.flatMap_assoc]
      exact List.flatMap_congr fun t ht => ih t ht
  | _ => rfl

/-- A term without variables has only one value. -/
theorem replace_of_vars_eq_nil {t : Term} (h : t.vars = []) (f : Valuation) : t.replace f = t := by
  conv_rhs => rw [← replace_self t]
  exact replace_congr (by simp [h])

/-- Terms that no variable heads have equal values only if they are equal, records and lists
apart. -/
theorem eq_of_replace_eq_of_rigid {t u : Term} {f : Valuation}
    (ht : ∀ x, t = .var x → False) (hu : ∀ x, u = .var x → False)
    (hRecords : ∀ fs gs, t = .record fs → u = .record gs → False)
    (hLists : ∀ ts us, t = .list ts → u = .list us → False)
    (h : t.replace f = u.replace f) : t = u := by
  cases t <;> cases u <;> simp_all [replace]

/-! ### Weight and depth -/

theorem weight_pos (t : Term) : 0 < t.weight := by
  cases t <;> simp [weight]

/-- What stands for a variable is not larger than the whole, and smaller unless it is the whole. -/
theorem weight_lt_of_mem_vars {t : Term} {x : Var} (f : Valuation) (hx : x ∈ t.vars)
    (ht : t ≠ .var x) : (f x).weight < (t.replace f).weight := by
  have hPart (u : Term) (hu : x ∈ u.vars)
      (ih : u ≠ .var x → (f x).weight < (u.replace f).weight) :
      (f x).weight ≤ (u.replace f).weight := by
    by_cases h : u = .var x
    · rw [h, replace_var]
    · exact (ih h).le
  induction t with
  | var y =>
      obtain rfl : x = y := by simpa using hx
      exact absurd rfl ht
  | record fields ih =>
      simp only [vars_record, List.mem_flatMap] at hx
      obtain ⟨p, hp, hx⟩ := hx
      have hSum : (p.2.replace f).weight ≤ (fields.map fun p => (p.2.replace f).weight).sum :=
        List.le_sum_of_mem (List.mem_map_of_mem (f := fun p => (p.2.replace f).weight) hp)
      have := hPart p.2 hx (ih p hp hx)
      simp only [replace_record, weight_record, List.map_map, Function.comp_def]
      omega
  | list items ih =>
      simp only [vars_list, List.mem_flatMap] at hx
      obtain ⟨t, hMem, hx⟩ := hx
      have hSum : (t.replace f).weight ≤ (items.map fun t => (t.replace f).weight).sum :=
        List.le_sum_of_mem (List.mem_map_of_mem (f := fun t => (t.replace f).weight) hMem)
      have := hPart t hx (ih t hMem hx)
      simp only [replace_list, weight_list, List.map_map, Function.comp_def]
      omega
  | _ => simp [vars] at hx

/-- A path from the top of the term to a leaf passes through at most so many nodes. -/
def WithinDepth : Nat → Term → Prop
  | 0, _ => False
  | n + 1, t => ∀ u ∈ t.parts, WithinDepth n u

theorem WithinDepth.mono {m n : Nat} (h : m ≤ n) {t : Term} (ht : t.WithinDepth m) :
    t.WithinDepth n := by
  induction m generalizing n t with
  | zero => exact ht.elim
  | succ m ih =>
      obtain ⟨n, rfl⟩ : ∃ k, n = k + 1 := ⟨n - 1, by omega⟩
      exact fun u hu => ih (by omega) (ht u hu)

theorem WithinDepth.exists_succ {n : Nat} {t : Term} (ht : t.WithinDepth n) : ∃ m, n = m + 1 := by
  cases n with
  | zero => exact ht.elim
  | succ m => exact ⟨m, rfl⟩

theorem weight_lt_of_mem_parts {t u : Term} (h : u ∈ t.parts) : u.weight < t.weight := by
  cases t with
  | record fields =>
      obtain ⟨p, hp, rfl⟩ := List.mem_map.mp h
      have := List.le_sum_of_mem (List.mem_map_of_mem (f := fun p => p.2.weight) hp)
      rw [weight_record]
      omega
  | list items =>
      have := List.le_sum_of_mem (List.mem_map_of_mem (f := weight) (show u ∈ items from h))
      rw [weight_list]
      omega
  | _ => simp [parts] at h

theorem withinDepth_weight (t : Term) : t.WithinDepth t.weight := by
  induction hn : t.weight using Nat.strong_induction_on generalizing t with
  | _ n ih =>
      obtain ⟨m, rfl⟩ : ∃ k, n = k + 1 := ⟨n - 1, by have := weight_pos t; omega⟩
      intro u hu
      have hLt := weight_lt_of_mem_parts hu
      exact (ih u.weight (by omega) u rfl).mono (by omega)

theorem length_vars_le (t : Term) : t.vars.length ≤ t.weight := by
  induction t with
  | record fields ih =>
      rw [vars_record, weight_record, List.length_flatMap]
      exact Nat.le_succ_of_le (List.sum_le_sum ih)
  | list items ih =>
      rw [vars_list, weight_list, List.length_flatMap]
      exact Nat.le_succ_of_le (List.sum_le_sum ih)
  | _ => simp [vars, weight]

end Term

end PageLogic
