import PageLogic.Proofs.Term.Replacement
/-!
The leaves of a term: its variables, placeholders and constants. What is said of the leaves of a
term holds of its parts as well.
-/
namespace PageLogic.Term

mutual

/-- Everything in the term that is neither a record nor a list, from left to right. -/
def leaves : Term → List Term
  | .record fields => leavesFields fields
  | .list items => leavesAll items
  | t => [t]

def leavesFields : List (String × Term) → List Term
  | [] => []
  | (_, t) :: rest => leaves t ++ leavesFields rest

def leavesAll : List Term → List Term
  | [] => []
  | t :: rest => leaves t ++ leavesAll rest

end

mutual

/-- Puts a term in place of every placeholder, the same for the same number. -/
def fill (f : Nat → Term) : Term → Term
  | .placeholder n => f n
  | .record fields => .record (fillFields f fields)
  | .list items => .list (fillAll f items)
  | t => t

def fillFields (f : Nat → Term) : List (String × Term) → List (String × Term)
  | [] => []
  | (k, t) :: rest => (k, fill f t) :: fillFields f rest

def fillAll (f : Nat → Term) : List Term → List Term
  | [] => []
  | t :: rest => fill f t :: fillAll f rest

end

/-- The term holds no placeholder. -/
def Whole (t : Term) : Prop :=
  ∀ n, .placeholder n ∉ t.leaves

/-- The term holds neither variables nor placeholders. -/
def Ground (t : Term) : Prop :=
  t.vars = [] ∧ t.Whole

/-- The term names the element. -/
def Names (t : Term) (e : Handle) : Prop :=
  .element e ∈ t.leaves

/-! ### Records and lists at once -/

@[simp] theorem leaves_record (fields : List (String × Term)) :
    (record fields).leaves = fields.flatMap fun p => p.2.leaves := by
  have hFields : ∀ fields, leavesFields fields = fields.flatMap fun p => p.2.leaves := by
    intro fields
    induction fields with
    | nil => rfl
    | cons p rest ih => simp [leavesFields, ih]
  rw [leaves, hFields]

@[simp] theorem leaves_list (items : List Term) :
    (list items).leaves = items.flatMap leaves := by
  have hAll : ∀ items, leavesAll items = items.flatMap leaves := by
    intro items
    induction items with
    | nil => rfl
    | cons t rest ih => simp [leavesAll, ih]
  rw [leaves, hAll]

@[simp] theorem fill_record (f : Nat → Term) (fields : List (String × Term)) :
    (record fields).fill f = record (fields.map fun p => (p.1, p.2.fill f)) := by
  have hFields : ∀ fields, fillFields f fields = fields.map fun p => (p.1, p.2.fill f) := by
    intro fields
    induction fields with
    | nil => rfl
    | cons p rest ih => simp [fillFields, ih]
  rw [fill, hFields]

@[simp] theorem fill_list (f : Nat → Term) (items : List Term) :
    (list items).fill f = list (items.map (fill f)) := by
  have hAll : ∀ items, fillAll f items = items.map (fill f) := by
    intro items
    induction items with
    | nil => rfl
    | cons t rest ih => simp [fillAll, ih]
  rw [fill, hAll]

@[simp] theorem leaves_var (x : Var) : (var x).leaves = [.var x] := rfl

@[simp] theorem leaves_str (text : String) : (str text).leaves = [.str text] := rfl

@[simp] theorem leaves_element (e : Handle) : (element e).leaves = [.element e] := rfl

/-! ### Leaves and parts -/

theorem mem_leaves_of_mem_parts {t u l : Term} (hu : u ∈ t.parts) (hl : l ∈ u.leaves) :
    l ∈ t.leaves := by
  cases t with
  | record fields =>
      obtain ⟨p, hp, rfl⟩ := List.mem_map.mp hu
      rw [leaves_record, List.mem_flatMap]
      exact ⟨p, hp, hl⟩
  | list items =>
      rw [leaves_list, List.mem_flatMap]
      exact ⟨u, hu, hl⟩
  | _ => simp [parts] at hu

/-- What all leaves of a term share, the leaves of its parts share. -/
theorem hereditary_leaves (P : Term → Prop) : Hereditary fun t => ∀ l ∈ t.leaves, P l :=
  fun _ ht _ hu l hl => ht l (mem_leaves_of_mem_parts hu hl)

theorem hereditary_whole : Hereditary Whole :=
  fun _ ht _ hu n hn => ht n (mem_leaves_of_mem_parts hu hn)

theorem mem_vars_iff {t : Term} {x : Var} : x ∈ t.vars ↔ .var x ∈ t.leaves := by
  induction t with
  | var y => simp
  | record fields ih =>
      simp only [vars_record, leaves_record, List.mem_flatMap]
      exact exists_congr fun p => and_congr_right fun hp => ih p hp
  | list items ih =>
      simp only [vars_list, leaves_list, List.mem_flatMap]
      exact exists_congr fun t => and_congr_right fun ht => ih t ht
  | _ => simp [vars, leaves]

/-- A leaf of a replaced term stood there before, or belongs to what a variable was replaced by. -/
theorem mem_leaves_replace {f : Valuation} {t l : Term} (hl : l ∈ (t.replace f).leaves) :
    (l ∈ t.leaves ∧ ∀ x, l ≠ .var x) ∨ ∃ x ∈ t.vars, l ∈ (f x).leaves := by
  induction t with
  | var x => exact Or.inr ⟨x, by simp, hl⟩
  | record fields ih =>
      simp only [replace_record, leaves_record, List.mem_flatMap, List.mem_map] at hl
      obtain ⟨_, ⟨p, hp, rfl⟩, hl⟩ := hl
      rcases ih p hp hl with ⟨hOld, hNot⟩ | ⟨x, hx, hNew⟩
      · exact Or.inl ⟨mem_leaves_of_mem_parts (field_mem_parts hp) hOld, hNot⟩
      · exact Or.inr ⟨x, mem_vars_of_mem_parts (field_mem_parts hp) hx, hNew⟩
  | list items ih =>
      simp only [replace_list, leaves_list, List.mem_flatMap, List.mem_map] at hl
      obtain ⟨_, ⟨t, ht, rfl⟩, hl⟩ := hl
      rcases ih t ht hl with ⟨hOld, hNot⟩ | ⟨x, hx, hNew⟩
      · exact Or.inl ⟨mem_leaves_of_mem_parts (item_mem_parts ht) hOld, hNot⟩
      · exact Or.inr ⟨x, mem_vars_of_mem_parts (item_mem_parts ht) hx, hNew⟩
  | _ => exact Or.inl (by simp_all [replace, leaves])

/-! ### Filling -/

/-- Filling a term without placeholders of its own, once variables are replaced. -/
theorem fill_replace {t : Term} (ht : t.Whole) (f : Nat → Term) (v : Valuation) :
    (t.replace v).fill f = t.replace fun x => (v x).fill f := by
  induction t with
  | var x => rfl
  | placeholder n => exact absurd (by simp [leaves]) (ht n)
  | record fields ih =>
      simp only [replace_record, fill_record, List.map_map, record.injEq]
      refine List.map_congr_left fun p hp => ?_
      simp only [Function.comp_apply, Prod.mk.injEq, true_and]
      exact ih p hp (hereditary_whole _ ht _ (field_mem_parts hp))
  | list items ih =>
      simp only [replace_list, fill_list, List.map_map, list.injEq]
      refine List.map_congr_left fun t hMem => ?_
      exact ih t hMem (hereditary_whole _ ht _ (item_mem_parts hMem))
  | _ => rfl

theorem fill_of_whole {t : Term} (ht : t.Whole) (f : Nat → Term) : t.fill f = t := by
  have h := fill_replace ht f Term.var
  rw [replace_self] at h
  rw [h]
  exact replace_self t

theorem Ground.replace {t : Term} (ht : t.Ground) (v : Valuation) : t.replace v = t :=
  replace_of_vars_eq_nil ht.1 v

/-- The leaves of what a variable was replaced by are leaves of the whole. -/
theorem mem_leaves_replace_of_mem_vars {f : Valuation} {t l : Term} {x : Var} (hx : x ∈ t.vars)
    (hl : l ∈ (f x).leaves) : l ∈ (t.replace f).leaves := by
  induction t with
  | var y =>
      obtain rfl : x = y := by simpa using hx
      exact hl
  | record fields ih =>
      rw [vars_record, List.mem_flatMap] at hx
      obtain ⟨p, hp, hx⟩ := hx
      rw [replace_record, leaves_record, List.flatMap_map, List.mem_flatMap]
      exact ⟨p, hp, ih p hp hx⟩
  | list items ih =>
      rw [vars_list, List.mem_flatMap] at hx
      obtain ⟨t, ht, hx⟩ := hx
      rw [replace_list, leaves_list, List.flatMap_map, List.mem_flatMap]
      exact ⟨t, ht, ih t ht hx⟩
  | _ => simp [vars] at hx

theorem ground_iff {t : Term} :
    t.Ground ↔ ∀ l ∈ t.leaves, (∀ x, l ≠ .var x) ∧ ∀ n, l ≠ .placeholder n := by
  constructor
  · rintro ⟨hVars, hWhole⟩ l hl
    refine ⟨fun x hEq => ?_, fun n hEq => hWhole n (hEq ▸ hl)⟩
    have hx := mem_vars_iff.mpr (hEq ▸ hl)
    rw [hVars] at hx
    cases hx
  · intro h
    refine ⟨List.eq_nil_iff_forall_not_mem.mpr fun x hx => ?_, fun n hn => (h _ hn).2 n rfl⟩
    exact (h _ (mem_vars_iff.mp hx)).1 x rfl

/-- Whatever a variable of the term was replaced by is ground if the whole is. -/
theorem Ground.of_replace {t : Term} {v : Valuation} (h : (t.replace v).Ground) {x : Var}
    (hx : x ∈ t.vars) : (v x).Ground :=
  ground_iff.mpr fun l hl => ground_iff.mp h l (mem_leaves_replace_of_mem_vars hx hl)

/-! ### Closing -/

/-- The term with a constant in place of every variable and every placeholder. -/
def closed (t : Term) : Term :=
  (t.replace fun _ => .bool true).fill fun _ => .bool true

theorem ground_closed (t : Term) : t.closed.Ground := by
  unfold closed
  rw [ground_iff]
  induction t with
  | record fields ih =>
      intro l hl
      simp only [replace_record, fill_record, leaves_record, List.map_map, List.flatMap_map,
        List.mem_flatMap] at hl
      obtain ⟨p, hp, hl⟩ := hl
      exact ih p hp l hl
  | list items ih =>
      intro l hl
      simp only [replace_list, fill_list, leaves_list, List.map_map, List.flatMap_map,
        List.mem_flatMap] at hl
      obtain ⟨t, ht, hl⟩ := hl
      exact ih t ht l hl
  | _ => simp [replace, fill, leaves]

/-- Closing the value of a term closes the values of its variables. -/
theorem closed_replace {t : Term} (ht : t.Whole) (v : Valuation) :
    (t.replace v).closed = t.replace (closed ∘ v) := by
  unfold closed
  rw [replace_replace, fill_replace ht]
  rfl

theorem Ground.closed_eq {t : Term} (ht : t.Ground) : t.closed = t := by
  unfold closed
  rw [ht.replace, fill_of_whole ht.2]

end PageLogic.Term
