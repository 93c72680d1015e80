import PageLogic.Proofs.Substitution.Unify
import PageLogic.Substitution.Steps
import Mathlib.Logic.Relation
import Mathlib.Order.Filter.AtTopBot.Basic
import Mathlib.Order.Filter.Finite
/-!
Bindings that lead in a circle. A substitution is acyclic exactly if no variable reaches itself
through its bindings, and exactly then do the runs that follow bindings step by step end on every
term. They end with what `walk`, `resolve` and `occurs` give. Binding a variable a second time may
close a circle, because the older binding hides the variable from the search for occurrences.
-/
namespace PageLogic.Substitution

open Filter

variable {s r : Substitution} {x y : Var} {t u : Term}

/-! ### Reaching a variable through bindings -/

/-- The term that the first variable is bound to mentions the second. -/
def Mentions (s : Substitution) (x y : Var) : Prop :=
  ∃ t, s.lookup x = some t ∧ y ∈ t.vars

/-- Bindings lead from the first variable to the second, however many terms lie between. -/
def Reaches (s : Substitution) (x y : Var) : Prop :=
  Relation.TransGen s.Mentions x y

/-- No variable reaches itself. -/
def FreeOfCircles (s : Substitution) : Prop :=
  ∀ x, ¬ s.Reaches x x

theorem RankedBy.lt_of_reaches {rank : Var → Nat} (h : s.RankedBy rank) (hReach : s.Reaches x y) :
    rank y < rank x := by
  induction hReach with
  | single hStep =>
      obtain ⟨t, hx, hy⟩ := hStep
      exact h _ t hx _ hy
  | tail _ hStep ih =>
      obtain ⟨t, hx, hy⟩ := hStep
      exact (h _ t hx _ hy).trans ih

theorem Acyclic.freeOfCircles (h : s.Acyclic) : s.FreeOfCircles := by
  obtain ⟨rank, hRank⟩ := h
  intro x hReach
  have hLt := hRank.lt_of_reaches hReach
  omega

/-- Without circles, the number of variables in reach is a rank. -/
theorem FreeOfCircles.acyclic (h : s.FreeOfCircles) : s.Acyclic := by
  classical
  let mentioned := s.bindings.flatMap fun p => p.2.vars
  refine ⟨fun x => mentioned.countP fun y => s.Reaches x y, ?_⟩
  intro x t hx y hy
  have hStep : s.Mentions x y := ⟨t, hx, hy⟩
  have hMem : y ∈ mentioned := List.mem_flatMap.mpr ⟨(x, t), mem_bindings_of_lookup hx, hy⟩
  have hReach : s.Reaches x y := Relation.TransGen.single hStep
  have hMore (z : Var) (hz : s.Reaches y z) : s.Reaches x z := Relation.TransGen.head hStep hz
  apply countP_lt_countP (a := y) ?_ hMem
  · simpa using h y
  · simpa using hReach
  · simpa using hMore

theorem Reaches.of_without {z : Var} (h : (s.without z).Reaches x y) : s.Reaches x y := by
  apply Relation.TransGen.mono _ x y h
  rintro a b ⟨t, ha, hb⟩
  rw [lookup_without] at ha
  split at ha
  · cases ha
  · exact ⟨t, ha, hb⟩

/-- What can be reached from a part can be reached from the whole. -/
theorem mem_or_reaches_of_parts (hu : u ∈ t.parts)
    (h : y ∈ u.vars ∨ ∃ x ∈ u.vars, s.Reaches x y) :
    y ∈ t.vars ∨ ∃ x ∈ t.vars, s.Reaches x y := by
  rcases h with hy | ⟨x, hx, hReach⟩
  · exact Or.inl (Term.mem_vars_of_mem_parts hu hy)
  · exact Or.inr ⟨x, Term.mem_vars_of_mem_parts hu hx, hReach⟩

/-- What is left of a term when it is resolved can be reached from it. -/
theorem reaches_of_mem_resolve (h : y ∈ (s.resolve t).vars) :
    y ∈ t.vars ∨ ∃ x ∈ t.vars, s.Reaches x y := by
  induction s, t using follow with
  | bound s x t hx ih =>
      rw [resolve_of_lookup hx] at h
      refine Or.inr ⟨x, by simp, ?_⟩
      rcases ih h with hy | ⟨z, hz, hReach⟩
      · exact Relation.TransGen.single ⟨t, hx, hy⟩
      · exact Relation.TransGen.head ⟨t, hx, hz⟩ hReach.of_without
  | unbound s x hx =>
      rw [resolve_of_unbound hx] at h
      exact Or.inl h
  | record s fields ih =>
      simp only [resolve_record, Term.vars_record, List.flatMap_map, List.mem_flatMap] at h
      obtain ⟨p, hp, hy⟩ := h
      exact mem_or_reaches_of_parts (Term.field_mem_parts hp) (ih p hp hy)
  | list s items ih =>
      simp only [resolve_list, Term.vars_list, List.flatMap_map, List.mem_flatMap] at h
      obtain ⟨u, hu, hy⟩ := h
      exact mem_or_reaches_of_parts (Term.item_mem_parts hu) (ih u hu hy)
  | _ => simp [resolve, Term.vars] at h

/-! ### Runs on acyclic substitutions -/

/-- Induction along the bindings of an acyclic substitution and into terms. Unlike `follow` it
forgets no binding on the way. -/
@[elab_as_elim]
theorem Acyclic.induct {motive : Term → Prop} (h : s.Acyclic)
    (bound : ∀ x t, s.lookup x = some t → motive t → motive (.var x))
    (unbound : ∀ x, s.lookup x = none → motive (.var x))
    (placeholder : ∀ n, motive (.placeholder n))
    (str : ∀ text, motive (.str text))
    (int : ∀ i, motive (.int i))
    (bool : ∀ b, motive (.bool b))
    (element : ∀ e, motive (.element e))
    (record : ∀ fields, (∀ f ∈ fields, motive f.2) → motive (.record fields))
    (list : ∀ items, (∀ t ∈ items, motive t) → motive (.list items))
    (t : Term) : motive t := by
  obtain ⟨rank, hRank⟩ := h
  have hBelow (n : Nat) : ∀ t, (∀ x ∈ t.vars, rank x < n) → motive t := by
    induction n using Nat.strong_induction_on with
    | _ n ih =>
        intro t ht
        induction t with
        | var x =>
            cases hx : s.lookup x with
            | none => exact unbound x hx
            | some u => exact bound x u hx (ih (rank x) (ht x (by simp)) u (hRank x u hx))
        | record fields hFields =>
            apply record
            intro f hf
            apply hFields f hf
            intro x hx
            exact ht x (Term.mem_vars_of_mem_parts (Term.field_mem_parts hf) hx)
        | list items hItems =>
            apply list
            intro u hu
            apply hItems u hu
            intro x hx
            exact ht x (Term.mem_vars_of_mem_parts (Term.item_mem_parts hu) hx)
        | placeholder n => exact placeholder n
        | str text => exact str text
        | int i => exact int i
        | bool b => exact bool b
        | element e => exact element e
  apply hBelow ((t.vars.map rank).sum + 1)
  intro x hx
  have hLe : rank x ≤ (t.vars.map rank).sum := List.le_sum_of_mem (List.mem_map_of_mem hx)
  omega

/-- What holds from some limit on holds from the next limit on, and the other way round. -/
theorem eventually_succ_iff {p : Nat → Prop} :
    (∀ᶠ n in atTop, p (n + 1)) ↔ ∀ᶠ n in atTop, p n := by
  conv_rhs => rw [← map_add_atTop_eq_nat 1]
  rfl

/-- One limit is enough for all items of a list. -/
theorem eventually_forall_mem {α : Type} {p : Nat → α → Prop} {l : List α}
    (h : ∀ a ∈ l, ∀ᶠ n in atTop, p n a) : ∀ᶠ n in atTop, ∀ a ∈ l, p n a :=
  (eventually_all_finite l.finite_toSet).mpr h

theorem mapM_eq_some_map {α β : Type} {f : α → Option β} {g : α → β} {l : List α}
    (h : ∀ a ∈ l, f a = some (g a)) : l.mapM f = some (l.map g) := by
  induction l with
  | nil => rfl
  | cons a l ih =>
      obtain ⟨ha, hl⟩ := List.forall_mem_cons.mp h
      simp [List.mapM_cons, ha, ih hl]

theorem exists_of_mapM_eq_some {α β : Type} {f : α → Option β} {l : List α} {bs : List β}
    (h : l.mapM f = some bs) : ∀ a ∈ l, ∃ b, f a = some b := by
  induction l generalizing bs with
  | nil => simp
  | cons a l ih =>
      simp only [List.mapM_cons, Option.bind_eq_bind, Option.bind_eq_some_iff] at h
      obtain ⟨b, ha, bs', hl, _⟩ := h
      exact List.forall_mem_cons.mpr ⟨⟨b, ha⟩, ih hl⟩

theorem anyM_eq_some_any {α : Type} {p : α → Option Bool} {q : α → Bool} {l : List α}
    (h : ∀ a ∈ l, p a = some (q a)) : l.anyM p = some (l.any q) := by
  induction l with
  | nil => rfl
  | cons a l ih =>
      obtain ⟨ha, hl⟩ := List.forall_mem_cons.mp h
      rw [List.anyM_cons, ha, ih hl]
      cases hq : q a <;> simp [hq]

theorem resolve?_succ_record {n : Nat} {fields : List (String × Term)}
    (h : s.walk? n t = some (.record fields)) :
    s.resolve? (n + 1) t =
      (fields.mapM fun f => (s.resolve? n f.2).map (f.1, ·)).map .record := by
  simp [resolve?, h, Option.map_eq_bind]

theorem resolve?_succ_list {n : Nat} {items : List Term}
    (h : s.walk? n t = some (.list items)) :
    s.resolve? (n + 1) t = (items.mapM (s.resolve? n)).map .list := by
  simp [resolve?, h, Option.map_eq_bind]

theorem occurs?_succ_record {n : Nat} {fields : List (String × Term)}
    (h : s.walk? n t = some (.record fields)) :
    s.occurs? x (n + 1) t = fields.anyM fun f => s.occurs? x n f.2 := by
  simp [occurs?, h]

theorem occurs?_succ_list {n : Nat} {items : List Term} (h : s.walk? n t = some (.list items)) :
    s.occurs? x (n + 1) t = items.anyM (s.occurs? x n) := by
  simp [occurs?, h]

/-- A walk on an acyclic substitution ends. -/
theorem Acyclic.walk?_ends (h : s.Acyclic) (t : Term) :
    ∀ᶠ n in atTop, s.walk? n t = some (s.walk t) := by
  induction t using h.induct with
  | bound x t hx ih =>
      rw [← eventually_succ_iff, h.walk_bound hx]
      filter_upwards [ih] with n hn
      simp [walk?, hx, hn]
  | unbound x hx =>
      rw [← eventually_succ_iff, walk_of_unbound hx]
      exact Eventually.of_forall fun n => by simp [walk?, hx]
  | _ =>
      rw [← eventually_succ_iff, walk_of_not_isVar rfl]
      exact Eventually.of_forall fun n => by simp [walk?]

/-- From some limit on, a run on a bound variable goes on as the run on its binding. -/
theorem Acyclic.walk?_bound (h : s.Acyclic) (hx : s.lookup x = some t) :
    ∀ᶠ n in atTop, s.walk? n (.var x) = s.walk? n t := by
  filter_upwards [h.walk?_ends (.var x), h.walk?_ends t] with n hVar hTerm
  rw [hVar, hTerm, h.walk_bound hx]

theorem walk?_ends_of_not_isVar (s : Substitution) (t : Term) (ht : t.isVar = false) :
    ∀ᶠ n in atTop, s.walk? n t = some t := by
  rw [← eventually_succ_iff]
  cases t with
  | var x => cases ht
  | _ => exact Eventually.of_forall fun n => by simp [walk?]

/-- So does resolving. -/
theorem Acyclic.resolve?_ends (h : s.Acyclic) (t : Term) :
    ∀ᶠ n in atTop, s.resolve? n t = some (s.resolve t) := by
  induction t using h.induct with
  | bound x t hx ih =>
      rw [← eventually_succ_iff] at ih ⊢
      filter_upwards [h.walk?_bound hx, ih] with n hWalk hn
      rw [h.resolve_bound hx, ← hn, resolve?, resolve?, hWalk]
  | unbound x hx =>
      rw [← eventually_succ_iff, resolve_of_unbound hx]
      filter_upwards [h.walk?_ends (.var x)] with n hWalk
      simp [resolve?, hWalk, walk_of_unbound hx]
  | record fields ih =>
      rw [← eventually_succ_iff]
      filter_upwards [s.walk?_ends_of_not_isVar (.record fields) rfl, eventually_forall_mem ih]
        with n hWalk hn
      have hFields : (fields.mapM fun f => (s.resolve? n f.2).map (f.1, ·)) =
          some (fields.map fun p => (p.1, s.resolve p.2)) :=
        mapM_eq_some_map fun f hf => by rw [hn f hf, Option.map_some]
      rw [resolve?_succ_record hWalk, hFields, resolve_record, Option.map_some]
  | list items ih =>
      rw [← eventually_succ_iff]
      filter_upwards [s.walk?_ends_of_not_isVar (.list items) rfl, eventually_forall_mem ih]
        with n hWalk hn
      rw [resolve?_succ_list hWalk, mapM_eq_some_map hn, resolve_list, Option.map_some]
  | _ =>
      rw [← eventually_succ_iff, ← eventually_succ_iff]
      exact Eventually.of_forall fun n => by simp [resolve?, walk?, resolve]

/-- Bound variables hold what their bindings hold. -/
theorem Acyclic.occurs_bound (h : s.Acyclic) (hy : s.lookup y = some t) (x : Var) :
    s.occurs x (.var y) = s.occurs x t := by
  rw [Bool.eq_iff_iff, occurs_iff, occurs_iff, h.resolve_bound hy]

/-- And so does the search for an occurrence. -/
theorem Acyclic.occurs?_ends (h : s.Acyclic) (x : Var) (t : Term) :
    ∀ᶠ n in atTop, s.occurs? x n t = some (s.occurs x t) := by
  induction t using h.induct with
  | bound y t hy ih =>
      rw [← eventually_succ_iff] at ih ⊢
      filter_upwards [h.walk?_bound hy, ih] with n hWalk hn
      rw [h.occurs_bound hy, ← hn, occurs?, occurs?, hWalk]
  | unbound y hy =>
      rw [← eventually_succ_iff, occurs_of_unbound hy]
      filter_upwards [h.walk?_ends (.var y)] with n hWalk
      simp [occurs?, hWalk, walk_of_unbound hy]
  | record fields ih =>
      rw [← eventually_succ_iff]
      filter_upwards [s.walk?_ends_of_not_isVar (.record fields) rfl, eventually_forall_mem ih]
        with n hWalk hn
      rw [occurs?_succ_record hWalk, anyM_eq_some_any hn, occurs_record]
  | list items ih =>
      rw [← eventually_succ_iff]
      filter_upwards [s.walk?_ends_of_not_isVar (.list items) rfl, eventually_forall_mem ih]
        with n hWalk hn
      rw [occurs?_succ_list hWalk, anyM_eq_some_any hn, occurs_list]
  | _ =>
      rw [← eventually_succ_iff, ← eventually_succ_iff]
      exact Eventually.of_forall fun n => by simp [occurs?, walk?, occurs]

/-- What may be bound is decided in the end. -/
theorem Acyclic.extend?_ends (h : s.Acyclic) (x : Var) (t : Term) :
    ∀ᶠ n in atTop, s.extend? n x t = .ofOption (s.extend x t) := by
  filter_upwards [h.occurs?_ends x t] with n hn
  unfold extend? extend
  rw [hn]
  cases s.occurs x t <;> rfl

/-! ### Runs that never end -/

theorem lookup_of_walk?_eq_var {n : Nat} (h : s.walk? n t = some (.var x)) : s.lookup x = none := by
  induction n generalizing t with
  | zero => cases h
  | succ n ih =>
      cases t with
      | var y =>
          cases hy : s.lookup y with
          | none =>
              obtain rfl : y = x := by simpa [walk?, hy] using h
              exact hy
          | some u => exact ih (by simpa [walk?, hy] using h)
      | _ => simp [walk?] at h

/-- No path along bindings goes on for ever from the variables of a term whose walk has ended, if
none does from those of the term at which it ended. -/
theorem acc_of_walk? {n : Nat} (h : s.walk? n t = some u)
    (hu : ∀ y ∈ u.vars, Acc (Function.swap s.Mentions) y) :
    ∀ x ∈ t.vars, Acc (Function.swap s.Mentions) x := by
  induction n generalizing t with
  | zero => cases h
  | succ n ih =>
      cases t with
      | var y =>
          cases hy : s.lookup y with
          | none =>
              obtain rfl : .var y = u := by simpa [walk?, hy] using h
              exact hu
          | some w =>
              have hBound := ih (t := w) (by simpa [walk?, hy] using h)
              intro x hx
              obtain rfl : x = y := by simpa using hx
              apply Acc.intro
              rintro z ⟨v, hv, hMem⟩
              obtain rfl := Option.some.inj (hy.symm.trans hv)
              exact hBound z hMem
      | _ =>
          obtain rfl := Option.some.inj h
          exact hu

/-- Nor does any from the variables of a term that could be resolved. -/
theorem acc_of_resolve? {n : Nat} (h : s.resolve? n t = some u) :
    ∀ x ∈ t.vars, Acc (Function.swap s.Mentions) x := by
  induction n generalizing t u with
  | zero => cases h
  | succ n ih =>
      cases hWalk : s.walk? n t with
      | none => simp [resolve?, hWalk] at h
      | some w =>
          apply acc_of_walk? hWalk
          cases w with
          | var y =>
              have hNone := lookup_of_walk?_eq_var hWalk
              intro x hx
              obtain rfl : x = y := by simpa using hx
              apply Acc.intro
              rintro z ⟨v, hv, _⟩
              rw [hNone] at hv
              cases hv
          | record fields =>
              rw [resolve?_succ_record hWalk, Option.map_eq_some_iff] at h
              obtain ⟨ends, hEnds, _⟩ := h
              intro x hx
              rw [Term.vars_record, List.mem_flatMap] at hx
              obtain ⟨f, hf, hx⟩ := hx
              obtain ⟨p, hp⟩ := exists_of_mapM_eq_some hEnds f hf
              obtain ⟨w, hw, _⟩ := Option.map_eq_some_iff.mp hp
              exact ih hw x hx
          | list items =>
              rw [resolve?_succ_list hWalk, Option.map_eq_some_iff] at h
              obtain ⟨ends, hEnds, _⟩ := h
              intro x hx
              rw [Term.vars_list, List.mem_flatMap] at hx
              obtain ⟨w, hw, hx⟩ := hx
              obtain ⟨v, hv⟩ := exists_of_mapM_eq_some hEnds w hw
              exact ih hv x hx
          | _ => simp [Term.vars]

theorem not_self_of_acc {α : Type} {R : α → α → Prop} {a : α} (h : Acc R a) : ¬ R a a := by
  induction h with
  | intro a _ ih => exact fun hSelf => ih a hSelf hSelf

/-- Every term can be resolved exactly if no variable reaches itself. -/
theorem freeOfCircles_iff_resolve?_ends :
    s.FreeOfCircles ↔ ∀ t, ∃ n u, s.resolve? n t = some u := by
  constructor
  · intro h t
    obtain ⟨n, hn⟩ := (h.acyclic.resolve?_ends t).exists
    exact ⟨n, _, hn⟩
  · intro h x hReach
    obtain ⟨n, u, hn⟩ := h (.var x)
    have hAcc := (acc_of_resolve? hn x (by simp)).transGen
    have hBack : Relation.TransGen (Function.swap s.Mentions) x x := Relation.transGen_swap.mpr hReach
    exact not_self_of_acc hAcc hBack

/-! ### Binding a variable again -/

theorem mentions_congr (h : ∀ y, s.lookup y = r.lookup y) : s.Mentions = r.Mentions := by
  funext x y
  simp only [Mentions, h]

theorem freeOfCircles_congr (h : ∀ y, s.lookup y = r.lookup y) :
    s.FreeOfCircles ↔ r.FreeOfCircles := by
  unfold FreeOfCircles Reaches
  rw [mentions_congr h]

theorem extend_eq_some_iff : s.extend x t = some r ↔ s.occurs x t = false ∧ r = s.push x t := by
  unfold extend
  cases s.occurs x t <;> simp [eq_comm]

theorem Acyclic.without (h : s.Acyclic) (x : Var) : (s.without x).Acyclic := by
  obtain ⟨rank, hRank⟩ := h
  exact ⟨rank, hRank.without x⟩

/-- The newest binding counts, so that an older one might as well not be there. -/
theorem lookup_push_without (s : Substitution) (x y : Var) (t : Term) :
    ((s.without x).push x t).lookup y = (s.push x t).lookup y := by
  rw [lookup_push, lookup_push, lookup_without]
  split <;> rfl

/-- A variable that turns up in its own new binding closes a circle, even if it does so only once
its older binding is set aside. -/
theorem reaches_self_of_occurs (h : (s.without x).occurs x t = true) :
    (s.push x t).Reaches x x := by
  have hSelf : (s.push x t).lookup x = some t := by
    rw [lookup_push, if_pos rfl]
  have hStep (a b : Var) (hab : (s.without x).Mentions a b) : (s.push x t).Mentions a b := by
    obtain ⟨u, hu, hb⟩ := hab
    rw [lookup_without] at hu
    split at hu
    · cases hu
    · next hNe => exact ⟨u, by rw [lookup_push, if_neg hNe, hu], hb⟩
  rcases reaches_of_mem_resolve ((occurs_iff _ _ _).mp h) with hx | ⟨z, hz, hReach⟩
  · exact Relation.TransGen.single ⟨t, hSelf, hx⟩
  · exact Relation.TransGen.head ⟨t, hSelf, hz⟩ (Relation.TransGen.mono hStep z x hReach)

theorem FreeOfCircles.push_iff (hs : s.FreeOfCircles) :
    (s.push x t).FreeOfCircles ↔ (s.without x).occurs x t = false := by
  constructor
  · intro h
    rw [Bool.eq_false_iff]
    exact fun hOccurs => h x (reaches_self_of_occurs hOccurs)
  · intro hOccurs
    have hUnbound : (s.without x).lookup x = none := by
      rw [lookup_without, if_pos rfl]
    have hPush := ((hs.acyclic.without x).push hUnbound hOccurs).freeOfCircles
    exact (freeOfCircles_congr fun y => lookup_push_without s x y t).mp hPush

/-- What `extend` returns is free of circles exactly if the variable does not turn up in its new
binding once the older one is set aside, and always if there is no older one. Exactly then every
term can be walked and resolved. -/
theorem extend_freeOfCircles_iff (hs : s.FreeOfCircles) (h : s.extend x t = some r) :
    (r.FreeOfCircles ↔ (s.without x).occurs x t = false) ∧
      (s.lookup x = none → r.FreeOfCircles) ∧
      (r.FreeOfCircles ↔
        ∀ u, (∃ n w, r.walk? n u = some w) ∧ ∃ n w, r.resolve? n u = some w) := by
  obtain ⟨hOccurs, rfl⟩ := extend_eq_some_iff.mp h
  refine ⟨hs.push_iff, fun hx => (hs.acyclic.push hx hOccurs).freeOfCircles, ?_⟩
  constructor
  · intro hFree u
    obtain ⟨n, hn⟩ := (hFree.acyclic.walk?_ends u).exists
    exact ⟨⟨n, _, hn⟩, freeOfCircles_iff_resolve?_ends.mp hFree u⟩
  · exact fun hEnds => freeOfCircles_iff_resolve?_ends.mpr fun u => (hEnds u).2

/-- A number is replaced by a list of another variable, which makes no circle. -/
theorem extend_freeOfCircles_iff_number :
    let s := empty.push ⟨0⟩ (.int 5)
    s.FreeOfCircles ∧
      ∃ r, s.extend ⟨0⟩ (.list [.var ⟨1⟩]) = some r ∧ r.FreeOfCircles ∧
        ∃ n w, r.resolve? n (.var ⟨0⟩) = some w := by
  intro s
  have hFree : s.FreeOfCircles :=
    (Acyclic.empty.push (lookup_empty _) (by simp [occurs])).freeOfCircles
  have hUnbound : s.lookup ⟨1⟩ = none := by
    simp [s, lookup_push]
  have hExtend : s.extend ⟨0⟩ (.list [.var ⟨1⟩]) = some (s.push ⟨0⟩ (.list [.var ⟨1⟩])) :=
    extend_eq_some_iff.mpr ⟨by simp [occurs_of_unbound hUnbound], rfl⟩
  obtain ⟨hIff, _, hEnds⟩ := extend_freeOfCircles_iff hFree hExtend
  have hAside : (s.without ⟨0⟩).lookup ⟨1⟩ = none := by
    rw [lookup_without, hUnbound, ite_self]
  have hKept := hIff.mpr (by simp [occurs_of_unbound hAside])
  exact ⟨hFree, _, hExtend, hKept, (hEnds.mp hKept _).2⟩

/-- A number is replaced by the variable itself. The search for occurrences sees the number and lets
the binding pass, after which no walk from the variable ends. -/
theorem extend_closes_circle :
    let s := empty.push ⟨0⟩ (.int 5)
    s.FreeOfCircles ∧
      ∃ r, s.extend ⟨0⟩ (.var ⟨0⟩) = some r ∧
        (∀ᶠ n in atTop, s.extend? n ⟨0⟩ (.var ⟨0⟩) = .unified r) ∧
        ¬ r.FreeOfCircles ∧ ∀ n, r.walk? n (.var ⟨0⟩) = none := by
  intro s
  have hFree : s.FreeOfCircles :=
    (Acyclic.empty.push (lookup_empty _) (by simp [occurs])).freeOfCircles
  have hBound : s.lookup ⟨0⟩ = some (.int 5) := by
    simp [s, lookup_push]
  have hExtend : s.extend ⟨0⟩ (.var ⟨0⟩) = some (s.push ⟨0⟩ (.var ⟨0⟩)) :=
    extend_eq_some_iff.mpr ⟨by rw [occurs_of_lookup hBound]; simp [occurs], rfl⟩
  have hAside : (s.without ⟨0⟩).lookup ⟨0⟩ = none := by
    rw [lookup_without, if_pos rfl]
  refine ⟨hFree, _, hExtend, ?_, ?_, ?_⟩
  · simpa [hExtend, Attempt.ofOption] using hFree.acyclic.extend?_ends ⟨0⟩ (.var ⟨0⟩)
  · rw [hFree.push_iff, occurs_of_unbound hAside]
    simp
  · intro n
    induction n with
    | zero => rfl
    | succ n ih =>
        have hSelf : (s.push ⟨0⟩ (.var ⟨0⟩)).lookup ⟨0⟩ = some (.var ⟨0⟩) := by
          rw [lookup_push, if_pos rfl]
        simp only [walk?, hSelf, ih]

end PageLogic.Substitution
