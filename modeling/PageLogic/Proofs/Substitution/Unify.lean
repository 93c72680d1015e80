import PageLogic.Proofs.Substitution.Acyclic
import Mathlib.Tactic.Ring
/-!
Unification. Every attempt does one of three things: it grows the substitution by exactly what the
equation says, it clashes and then nothing solves the equation, or it meets a term that goes deeper
than it was allowed to look. `Substitution.reach` is a bound beyond which nothing lies, so the last
never happens to `unify`, which finds a most general solution or shows that there is none.
-/
namespace PageLogic.Substitution

/-- Bound variables and the terms that they are bound to all have the property. -/
def Over (P : Term → Prop) (s : Substitution) : Prop :=
  ∀ p ∈ s.bindings, P (.var p.1) ∧ P p.2

/-- One substitution comes from another by binding unbound variables, each to a term in which it
does not occur. What is bound, and to what, has the property. -/
inductive Grows (P : Term → Prop) (s : Substitution) : Substitution → Prop where
  | refl : Grows P s s
  | push {r : Substitution} {x : Var} {t : Term} (prior : Grows P s r)
      (hx : r.lookup x = none) (hOccurs : r.occurs x t = false)
      (hVar : P (.var x)) (hTerm : P t) : Grows P s (r.push x t)

variable {P : Term → Prop} {s r : Substitution}

theorem admits_push {x : Var} {t : Term} {v : Valuation} (hx : s.lookup x = none) :
    (s.push x t).Admits v ↔ s.Admits v ∧ v x = t.replace v := by
  constructor
  · intro h
    refine ⟨fun y u hy => h y u ?_, h x t (by rw [lookup_push, if_pos rfl])⟩
    rw [lookup_push, if_neg]
    · exact hy
    · rintro rfl
      rw [hx] at hy
      cases hy
  · rintro ⟨h, hEq⟩ y u hy
    rw [lookup_push] at hy
    split at hy
    · next hyx =>
        obtain rfl : t = u := by simpa using hy
        rwa [hyx]
    · exact h y u hy

/-! ### What a substitution is over -/

theorem over_empty : Over P empty := by
  simp [Over, empty]

theorem Over.push (h : Over P s) {x : Var} {t : Term} (hx : P (.var x)) (ht : P t) :
    Over P (s.push x t) :=
  List.forall_mem_cons.mpr ⟨⟨hx, ht⟩, h⟩

theorem Over.mono {Q : Term → Prop} (h : Over P s) (hPQ : ∀ t, P t → Q t) : Over Q s :=
  fun p hp => ⟨hPQ _ (h p hp).1, hPQ _ (h p hp).2⟩

theorem mem_bindings_of_lookup {x : Var} {t : Term} (h : s.lookup x = some t) :
    (x, t) ∈ s.bindings := by
  obtain ⟨before, after, hSplit, _⟩ := List.lookup_eq_some_iff.mp h
  rw [hSplit]
  simp

theorem Over.without (h : Over P s) (x : Var) : Over P (s.without x) :=
  fun p hp => h p (List.mem_of_mem_filter hp)

theorem Over.walk (h : Over P s) {t : Term} (ht : P t) : P (s.walk t) := by
  induction s, t using follow with
  | bound s x t hx ih =>
      rw [walk_of_lookup hx]
      exact ih (h.without x) (h _ (mem_bindings_of_lookup hx)).2
  | unbound s x hx => rwa [walk_of_unbound hx]
  | _ => rwa [walk_of_not_isVar rfl]

/-! ### Growth -/

/-- A stricter test that refuses an item of the list counts less. -/
theorem countP_lt_countP {α : Type} {p q : α → Bool} {l : List α} {a : α}
    (hpq : ∀ b, p b = true → q b = true) (ha : a ∈ l) (hp : p a = false) (hq : q a = true) :
    l.countP p < l.countP q := by
  induction l with
  | nil => cases ha
  | cons b rest ih =>
      have hLe : rest.countP p ≤ rest.countP q := List.countP_mono_left fun c _ hc => hpq c hc
      rcases List.mem_cons.mp ha with rfl | ha
      · rw [List.countP_cons_of_neg (by simp [hp]), List.countP_cons_of_pos hq]
        omega
      · have hLt := ih ha
        rw [List.countP_cons, List.countP_cons]
        by_cases hb : p b = true
        · simp only [hb, hpq b hb, ↓reduceIte]
          omega
        · simp only [hb, Bool.false_eq_true, ↓reduceIte]
          omega

namespace Grows

theorem trans {q : Substitution} (h : Grows P s r) (hNext : Grows P r q) : Grows P s q := by
  induction hNext with
  | refl => exact h
  | push _ hx hOccurs hVar hTerm ih => exact ih.push hx hOccurs hVar hTerm

theorem acyclic (h : Grows P s r) (hs : s.Acyclic) : r.Acyclic := by
  induction h with
  | refl => exact hs
  | push _ hx hOccurs _ _ ih => exact ih.push hx hOccurs

theorem stays_over (h : Grows P s r) (hs : Over P s) : Over P r := by
  induction h with
  | refl => exact hs
  | push _ _ _ hVar hTerm ih => exact ih.push hVar hTerm

/-- What the larger substitution admits, the smaller one does too. -/
theorem admits (h : Grows P s r) {v : Valuation} (hv : r.Admits v) : s.Admits v := by
  induction h with
  | refl => exact hv
  | push _ hx _ _ _ ih => exact ih ((admits_push hx).mp hv).1

/-- A walk in the smaller substitution is the beginning of a walk in the larger one. -/
theorem resolve_walk (h : Grows P s r) (hs : s.Acyclic) (t : Term) :
    r.resolve (s.walk t) = r.resolve t := by
  have hAdmits : r.Admits fun x => r.resolve (.var x) := by
    simpa using (h.acyclic hs).admits_resolve Term.var
  rw [resolve_eq_replace, resolve_eq_replace r t]
  exact (h.admits hAdmits).replace_walk t

/-- Growth uses up the unbound variables of a list to which it is confined. -/
theorem length_le {V : List Var} (h : Grows P s r) (hV : ∀ x, P (.var x) → x ∈ V) :
    r.length ≤ s.length + V.countP fun x => (s.lookup x).isNone := by
  -- A push binds one variable more and leaves at least one unbound variable less.
  have hCount : r.length + V.countP (fun x => (r.lookup x).isNone) ≤
      s.length + V.countP fun x => (s.lookup x).isNone := by
    induction h with
    | refl => exact Nat.le_refl _
    | @push r x t _ hx _ hVar _ ih =>
        have hMem : x ∈ V := hV x hVar
        have hLess : V.countP (fun y => ((r.push x t).lookup y).isNone) <
            V.countP (fun y => (r.lookup y).isNone) := by
          refine countP_lt_countP (a := x) ?_ hMem ?_ ?_
          · intro y hy
            rw [lookup_push] at hy
            split at hy
            · cases hy
            · exact hy
          · simp [lookup_push]
          · simp [hx]
        rw [length_push]
        omega
  omega

end Grows

/-! ### One attempt -/

/-- What an attempt may come to: the growth that solves an equation, a proof that nothing does, or
a growth under which something is too deep. -/
def Attempt.Meets (P : Term → Prop) (s : Substitution) (equation : Valuation → Prop)
    (deep : Substitution → Prop) : Attempt → Prop
  | .unified r => s.Grows P r ∧ ∀ v, r.Admits v ↔ s.Admits v ∧ equation v
  | .clash => ∀ v, s.Admits v → ¬ equation v
  | .tooDeep => ∃ r, s.Grows P r ∧ deep r

theorem Attempt.Meets.imp {a : Attempt} {E F : Valuation → Prop} {D D' : Substitution → Prop}
    (h : a.Meets P s E D) (hEF : ∀ v, s.Admits v → (E v ↔ F v))
    (hD : ∀ r, s.Grows P r → D r → D' r) : a.Meets P s F D' := by
  cases a with
  | unified r =>
      refine ⟨h.1, fun v => (h.2 v).trans ?_⟩
      exact and_congr_right fun hv => hEF v hv
  | clash => exact fun v hv hF => h v hv ((hEF v hv).mpr hF)
  | tooDeep =>
      obtain ⟨r, hGrows, hDeep⟩ := h
      exact ⟨r, hGrows, hD r hGrows hDeep⟩

/-- Two attempts in succession solve both equations, unless one of them goes too deep. -/
theorem Attempt.Meets.andThen {a : Attempt} {f : Substitution → Attempt} {E F : Valuation → Prop}
    {D D' : Substitution → Prop} (ha : a.Meets P s E D)
    (hf : ∀ r, s.Grows P r → (f r).Meets P r F D') :
    (a.andThen f).Meets P s (fun v => E v ∧ F v) fun r => D r ∨ D' r := by
  cases a with
  | unified r =>
      obtain ⟨hGrows, hSolves⟩ := ha
      have hNext := hf r hGrows
      simp only [Attempt.andThen]
      cases hAttempt : f r with
      | unified q =>
          rw [hAttempt] at hNext
          refine ⟨hGrows.trans hNext.1, fun v => ?_⟩
          rw [hNext.2 v, hSolves v, and_assoc]
      | clash =>
          rw [hAttempt] at hNext
          exact fun v hv hEF => hNext v ((hSolves v).mpr ⟨hv, hEF.1⟩) hEF.2
      | tooDeep =>
          rw [hAttempt] at hNext
          obtain ⟨q, hMore, hDeep⟩ := hNext
          exact ⟨q, hGrows.trans hMore, .inr hDeep⟩
  | clash => exact fun v hv hEF => ha v hv hEF.1
  | tooDeep =>
      obtain ⟨r, hGrows, hDeep⟩ := ha
      exact ⟨r, hGrows, .inl hDeep⟩

/-- Binding an unbound variable to a term that stands for something else. -/
theorem extend_meets {x : Var} {t : Term} {D : Substitution → Prop} (hx : s.lookup x = none)
    (hNe : s.resolve t ≠ .var x) (hVar : P (.var x)) (hTerm : P t) :
    (Attempt.ofOption (s.extend x t)).Meets P s (fun v => v x = t.replace v) D := by
  cases hOccurs : s.occurs x t with
  | false =>
      simp only [extend, hOccurs, Bool.false_eq_true, ↓reduceIte, Attempt.ofOption]
      exact ⟨Grows.refl.push hx hOccurs hVar hTerm, fun v => admits_push hx⟩
  | true =>
      simp only [extend, hOccurs, ↓reduceIte, Attempt.ofOption]
      intro v hv hEq
      rw [occurs_iff] at hOccurs
      have hLt := Term.weight_lt_of_mem_vars v hOccurs hNe
      rw [hv.replace_resolve, ← hEq] at hLt
      exact Nat.lt_irrefl _ hLt

/-- A property of single unifications carries over to the items of two lists. -/
theorem unifyAll_meets {step : Substitution → Term → Term → Attempt} {d : Nat}
    (hStep : ∀ r t u, r.Acyclic → Over P r → P t → P u →
      (step r t u).Meets P r (fun v => t.replace v = u.replace v)
        fun q => ¬ (q.resolve t).WithinDepth d)
    (hs : s.Acyclic) (hOver : Over P s) {ts us : List Term} (hts : ∀ t ∈ ts, P t)
    (hus : ∀ u ∈ us, P u) :
    (unifyAll step s ts us).Meets P s
      (fun v => ts.map (Term.replace v) = us.map (Term.replace v))
      fun q => ∃ t ∈ ts, ¬ (q.resolve t).WithinDepth d := by
  induction ts generalizing s us with
  | nil =>
      cases us with
      | nil => exact ⟨.refl, by simp⟩
      | cons u us => simp [unifyAll, Attempt.Meets]
  | cons t ts ih =>
      cases us with
      | nil => simp [unifyAll, Attempt.Meets]
      | cons u us =>
          obtain ⟨ht, htsTail⟩ := List.forall_mem_cons.mp hts
          obtain ⟨hu, husTail⟩ := List.forall_mem_cons.mp hus
          have hHead := hStep s t u hs hOver ht hu
          have hTail (r : Substitution) (hr : s.Grows P r) :=
            ih (hr.acyclic hs) (hr.stays_over hOver) htsTail husTail
          refine (hHead.andThen hTail).imp (fun v _ => by simp) fun q _ hDeep => ?_
          rcases hDeep with hDeep | ⟨t', hMem, hDeep⟩
          · exact ⟨t, List.mem_cons_self, hDeep⟩
          · exact ⟨t', List.mem_cons_of_mem _ hMem, hDeep⟩

/-- And to the fields of two records. -/
theorem unifyFields_meets {step : Substitution → Term → Term → Attempt} {d : Nat}
    (hStep : ∀ r t u, r.Acyclic → Over P r → P t → P u →
      (step r t u).Meets P r (fun v => t.replace v = u.replace v)
        fun q => ¬ (q.resolve t).WithinDepth d)
    (hs : s.Acyclic) (hOver : Over P s) {fs gs : List (String × Term)} (hfs : ∀ f ∈ fs, P f.2)
    (hgs : ∀ g ∈ gs, P g.2) :
    (unifyFields step s fs gs).Meets P s
      (fun v => (fs.map fun p => (p.1, p.2.replace v)) = gs.map fun p => (p.1, p.2.replace v))
      fun q => ∃ f ∈ fs, ¬ (q.resolve f.2).WithinDepth d := by
  induction fs generalizing s gs with
  | nil =>
      cases gs with
      | nil => exact ⟨.refl, by simp⟩
      | cons g gs => simp [unifyFields, Attempt.Meets]
  | cons f fs ih =>
      obtain ⟨k, t⟩ := f
      cases gs with
      | nil => simp [unifyFields, Attempt.Meets]
      | cons g gs =>
          obtain ⟨l, u⟩ := g
          obtain ⟨ht, hfsTail⟩ := List.forall_mem_cons.mp hfs
          obtain ⟨hu, hgsTail⟩ := List.forall_mem_cons.mp hgs
          by_cases hName : k = l
          · subst hName
            have hHead := hStep s t u hs hOver ht hu
            have hTail (r : Substitution) (hr : s.Grows P r) :=
              ih (hr.acyclic hs) (hr.stays_over hOver) hfsTail hgsTail
            simp only [unifyFields, ↓reduceIte]
            refine (hHead.andThen hTail).imp (fun v _ => by simp) fun q _ hDeep => ?_
            rcases hDeep with hDeep | ⟨f, hMem, hDeep⟩
            · exact ⟨(k, t), List.mem_cons_self, hDeep⟩
            · exact ⟨f, List.mem_cons_of_mem _ hMem, hDeep⟩
          · simp [unifyFields, hName, Attempt.Meets]

/-- A term that does not walk to a variable does not resolve to one. -/
theorem Acyclic.resolve_ne_var (hs : s.Acyclic) {t : Term} {x : Var} (hNe : s.walk t ≠ .var x) :
    s.resolve (s.walk t) ≠ .var x := by
  cases hWalk : s.walk t with
  | var y =>
      rw [resolve_of_unbound (hs.lookup_of_walk_eq_var hWalk)]
      rwa [hWalk] at hNe
  | _ => simp [resolve]

/-- Every attempt at an acyclic substitution comes to one of the three ends. -/
theorem unifyWithin_meets (hP : Term.Hereditary P) (d : Nat) (hs : s.Acyclic) (hOver : Over P s)
    {t u : Term} (ht : P t) (hu : P u) :
    (unifyWithin d s t u).Meets P s (fun v => t.replace v = u.replace v)
      fun q => ¬ (q.resolve t).WithinDepth d := by
  induction d generalizing s t u with
  | zero => exact ⟨s, .refl, fun h => h⟩
  | succ d ih =>
      have hStep : ∀ r t u, r.Acyclic → Over P r → P t → P u →
          (unifyWithin d r t u).Meets P r (fun v => t.replace v = u.replace v)
            fun q => ¬ (q.resolve t).WithinDepth d :=
        fun r t u hr hOverR ht hu => ih hr hOverR ht hu
      have hHead := hOver.walk ht
      have hHeadU := hOver.walk hu
      -- It is enough to speak of what the two terms walk to.
      suffices hWalked : (unifyWithin (d + 1) s t u).Meets P s
          (fun v => (s.walk t).replace v = (s.walk u).replace v)
          fun q => ¬ (q.resolve (s.walk t)).WithinDepth (d + 1) by
        refine hWalked.imp (fun v hv => ?_) fun q hq hDeep => ?_
        · rw [hv.replace_walk, hv.replace_walk]
        · rwa [hq.resolve_walk hs] at hDeep
      unfold unifyWithin
      split
      case h_1 x y hx hy =>
        rw [hx, hy]
        rw [hx] at hHead
        rw [hy] at hHeadU
        split
        · next hxy => exact ⟨.refl, by simp [hxy]⟩
        · next hxy =>
            have hy' := hs.lookup_of_walk_eq_var hy
            exact extend_meets (hs.lookup_of_walk_eq_var hx)
              (by simp [resolve_of_unbound hy', Ne.symm hxy]) hHead hHeadU
      case h_2 x hx hNot =>
        rw [hx]
        rw [hx] at hHead
        exact extend_meets (hs.lookup_of_walk_eq_var hx)
          (hs.resolve_ne_var fun h => hNot x h) hHead hHeadU
      case h_3 y hy hNot =>
        rw [hy]
        rw [hy] at hHeadU
        refine (extend_meets (hs.lookup_of_walk_eq_var hy)
          (hs.resolve_ne_var fun h => hNot y h) hHeadU hHead).imp ?_ fun _ _ h => h
        exact fun v _ => eq_comm
      case h_4 fs gs hfs hgs =>
        rw [hfs, hgs]
        rw [hfs] at hHead
        rw [hgs] at hHeadU
        refine (unifyFields_meets hStep hs hOver
          (fun f hf => hP _ hHead _ (Term.field_mem_parts hf))
          (fun g hg => hP _ hHeadU _ (Term.field_mem_parts hg))).imp (fun v _ => by simp) ?_
        rintro q _ ⟨f, hf, hDeep⟩ hWithin
        refine hDeep (hWithin _ ?_)
        rw [parts_resolve q rfl]
        exact List.mem_map_of_mem (Term.field_mem_parts hf)
      case h_5 ts us hts hus =>
        rw [hts, hus]
        rw [hts] at hHead
        rw [hus] at hHeadU
        have hts' : ∀ t ∈ ts, P t := hP _ hHead
        have hus' : ∀ u ∈ us, P u := hP _ hHeadU
        refine (unifyAll_meets hStep hs hOver hts' hus').imp (fun v _ => by simp) ?_
        rintro q _ ⟨t, ht, hDeep⟩ hWithin
        refine hDeep (hWithin _ ?_)
        rw [parts_resolve q rfl]
        exact List.mem_map_of_mem (Term.item_mem_parts ht)
      case h_6 hNotVar hNotVarU _ hNotRecords hNotLists =>
        split
        · next hEq => exact ⟨.refl, by simp [hEq]⟩
        · next hNe =>
            intro v _ hEq
            exact hNe (Term.eq_of_replace_eq_of_rigid hNotVar hNotVarU hNotRecords hNotLists hEq)

/-! ### The bound -/

/-- The variables that a substitution and two terms are made of. -/
def names (s : Substitution) (t u : Term) : List Var :=
  s.bindings.map (·.1) ++ ((s.bindings.flatMap fun p => p.2.vars) ++ (t.vars ++ u.vars))

/-- What growth can be made of while the two terms are unified. -/
def Ingredient (s : Substitution) (t u w : Term) : Prop :=
  (∀ x ∈ w.vars, x ∈ s.names t u) ∧ w.WithinDepth (s.weight + t.weight + u.weight)

theorem weight_eq (s : Substitution) : s.weight = (s.bindings.map fun p => p.2.weight).sum := by
  obtain ⟨bindings⟩ := s
  simp only [weight]
  induction bindings with
  | nil => rfl
  | cons p rest ih => simp [ih]

theorem ingredient_hereditary (s : Substitution) (t u : Term) :
    Term.Hereditary (s.Ingredient t u) := by
  rintro w ⟨hVars, hDepth⟩ part hPart
  refine ⟨fun x hx => hVars x (Term.mem_vars_of_mem_parts hPart hx), ?_⟩
  obtain ⟨n, hn⟩ := hDepth.exists_succ
  rw [hn] at hDepth ⊢
  exact Term.WithinDepth.mono (Nat.le_succ n) (hDepth part hPart)

theorem ingredient_left (s : Substitution) (t u : Term) : s.Ingredient t u t :=
  ⟨fun x hx => by simp [names, hx], t.withinDepth_weight.mono (by omega)⟩

theorem ingredient_right (s : Substitution) (t u : Term) : s.Ingredient t u u :=
  ⟨fun x hx => by simp [names, hx], u.withinDepth_weight.mono (by omega)⟩

theorem over_ingredient (s : Substitution) (t u : Term) : Over (s.Ingredient t u) s := by
  intro p hp
  refine ⟨⟨fun x hx => ?_, ?_⟩, ⟨fun x hx => ?_, ?_⟩⟩
  · obtain rfl : x = p.1 := by simpa using hx
    simp only [names, List.mem_append, List.mem_map]
    exact Or.inl ⟨p, hp, rfl⟩
  · have := t.weight_pos
    exact (Term.withinDepth_weight _).mono (by simp only [Term.weight]; omega)
  · simp only [names, List.mem_append, List.mem_flatMap]
    exact Or.inr (Or.inl ⟨p, hp, hx⟩)
  · have hLe : p.2.weight ≤ s.weight := by
      rw [weight_eq]
      exact List.le_sum_of_mem (List.mem_map_of_mem (f := fun p => p.2.weight) hp)
    exact (Term.withinDepth_weight _).mono (by omega)

/-- The keys of a substitution are bound, so that only the variables inside terms are left. -/
theorem countP_names_le (s : Substitution) (t u : Term) :
    (s.names t u).countP (fun x => (s.lookup x).isNone) ≤ s.weight + t.weight + u.weight := by
  have hKeys : (s.bindings.map (·.1)).countP (fun x => (s.lookup x).isNone) = 0 := by
    rw [List.countP_eq_zero]
    intro x hx
    obtain ⟨p, hp, rfl⟩ := List.mem_map.mp hx
    cases hLookup : s.lookup p.1 with
    | some w => simp
    | none => simpa using List.lookup_eq_none_iff.mp hLookup p hp
  have hTerms : (s.bindings.flatMap fun p => p.2.vars).length ≤ s.weight := by
    rw [weight_eq, List.length_flatMap]
    exact List.sum_le_sum fun p _ => p.2.length_vars_le
  rw [names, List.countP_append, hKeys, Nat.zero_add]
  refine List.countP_le_length.trans ?_
  have := t.length_vars_le
  have := u.length_vars_le
  simp only [List.length_append]
  omega

/-- Nothing that growth can make of the first term is deeper than the bound. -/
theorem withinDepth_reach (t u : Term) (hGrows : s.Grows (s.Ingredient t u) r) :
    (r.resolve t).WithinDepth (s.reach t u) := by
  have hOver := hGrows.stays_over (s.over_ingredient t u)
  have hLength := hGrows.length_le (V := s.names t u) fun x hx => hx.1 x (by simp)
  have hNames := s.countP_names_le t u
  have hLookup : ∀ x w, r.lookup x = some w →
      w.WithinDepth (s.weight + t.weight + u.weight) :=
    fun x w hx => (hOver _ (mem_bindings_of_lookup hx)).2.2
  refine (r.withinDepth_resolve t hLookup (s.ingredient_left t u).2).mono ?_
  simp only [reach]
  generalize s.weight + t.weight + u.weight = nodes at *
  calc nodes + r.length * nodes = (r.length + 1) * nodes := by ring
    _ ≤ (s.length + nodes + 1) * (nodes + 1) := Nat.mul_le_mul (by omega) (by omega)

theorem Acyclic.unifyWithin_ne_tooDeep (hs : s.Acyclic) (t u : Term) :
    unifyWithin (s.reach t u) s t u ≠ .tooDeep := by
  intro hDeep
  have hMeets := unifyWithin_meets (s.ingredient_hereditary t u) (s.reach t u) hs
    (s.over_ingredient t u) (s.ingredient_left t u) (s.ingredient_right t u)
  rw [hDeep] at hMeets
  obtain ⟨r, hGrows, hNot⟩ := hMeets
  exact hNot (withinDepth_reach t u hGrows)

/-! ### Unification -/

/-- A unifier admits exactly the solutions of the equation that were admitted before. -/
theorem Acyclic.unify_eq_some (hs : s.Acyclic) (hP : Term.Hereditary P) (hOver : Over P s)
    {t u : Term} (ht : P t) (hu : P u) (h : s.unify t u = some r) :
    s.Grows P r ∧ ∀ v, r.Admits v ↔ s.Admits v ∧ t.replace v = u.replace v := by
  have hMeets := unifyWithin_meets hP (s.reach t u) hs hOver ht hu
  unfold unify at h
  cases hAttempt : unifyWithin (s.reach t u) s t u with
  | unified q =>
      rw [hAttempt] at h hMeets
      obtain rfl : q = r := by simpa [Attempt.toOption] using h
      exact hMeets
  | clash => simp [hAttempt, Attempt.toOption] at h
  | tooDeep => simp [hAttempt, Attempt.toOption] at h

/-- Without a unifier the equation has no admitted solution. -/
theorem Acyclic.unify_eq_none (hs : s.Acyclic) {t u : Term} (h : s.unify t u = none)
    {v : Valuation} (hv : s.Admits v) : t.replace v ≠ u.replace v := by
  have hMeets := unifyWithin_meets (s.ingredient_hereditary t u) (s.reach t u) hs
    (s.over_ingredient t u) (s.ingredient_left t u) (s.ingredient_right t u)
  unfold unify at h
  cases hAttempt : unifyWithin (s.reach t u) s t u with
  | unified q => simp [hAttempt, Attempt.toOption] at h
  | clash =>
      rw [hAttempt] at hMeets
      exact hMeets v hv
  | tooDeep => exact absurd hAttempt (hs.unifyWithin_ne_tooDeep t u)

end PageLogic.Substitution
