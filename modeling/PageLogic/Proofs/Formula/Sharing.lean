import PageLogic.Proofs.Formula.Pool
import PageLogic.Proofs.Relation.Renaming
/-!
Formulas do not notice that their variables come from a shared pool. The pooled search of a formula goes
the same way as its own search: it asks the same questions, and delivers the same failures and, up to
the names of variables, the same branches, whichever variables other searches have drawn in between.
-/
namespace PageLogic

namespace Branch

variable {f g : Var → Var} {i j k m n : Nat} {b : Branch} {s : Substitution}

/-- The substitution says of the renamed variables what the branch says, and the variables that the
branch has used were drawn before `k`. -/
structure MirroredBy (f : Var → Var) (k : Nat) (b : Branch) (s : Substitution) : Prop where
  injective : Function.Injective f
  drawn : ∀ x : Var, x.id < b.supply → (f x).id < k
  fits : b.Fits fun _ => True
  substitution_eq : s = b.substitution.rename f

/-- The substitution mirrors the branch under some renaming which, for the variables below `n`, is the
one given. -/
def Mirrored (n : Nat) (f : Var → Var) (k : Nat) (b : Branch) (s : Substitution) : Prop :=
  n ≤ b.supply ∧ ∃ g, b.MirroredBy g k s ∧ ∀ x : Var, x.id < n → g x = f x

theorem Mirrored.later (hk : j ≤ k) (h : b.Mirrored n f j s) : b.Mirrored n f k s := by
  obtain ⟨hSupply, g, hMirrored, hAgree⟩ := h
  refine ⟨hSupply, g, ⟨hMirrored.injective, fun x hx => ?_, hMirrored.fits,
    hMirrored.substitution_eq⟩, hAgree⟩
  exact Nat.lt_of_lt_of_le (hMirrored.drawn x hx) hk

/-- Less is asked of the renaming if it is given for fewer variables. -/
theorem Mirrored.restrict (hn : n ≤ m) (hfg : ∀ x : Var, x.id < n → g x = f x)
    (h : b.Mirrored m g k s) : b.Mirrored n f k s := by
  obtain ⟨hSupply, γ, hMirrored, hAgree⟩ := h
  refine ⟨Nat.le_trans hn hSupply, γ, hMirrored, fun x hx => ?_⟩
  rw [hAgree x (Nat.lt_of_lt_of_le hx hn), hfg x hx]

/-- What the branch says of a term of its own is what the substitution says of the renamed term. -/
theorem Mirrored.reify_eq (h : b.Mirrored n f k s) {t : Term} (ht : t.Within (fun _ => True) n) :
    b.reify t = s.reify (t.rename f) := by
  obtain ⟨_, g, hMirrored, hAgree⟩ := h
  rw [hMirrored.substitution_eq, ← ht.rename_congr hAgree,
    Substitution.reify_rename hMirrored.injective]
  rfl

/-- The renaming that gives the variable `n` the name `j`, and names after it to those above. -/
def extendRenaming (f : Var → Var) (n j : Nat) (x : Var) : Var :=
  if x.id < n then f x else ⟨j + (x.id - n)⟩

theorem extendRenaming_below {x : Var} (hx : x.id < n) : extendRenaming f n j x = f x :=
  if_pos hx

theorem extendRenaming_self : extendRenaming f n j ⟨n⟩ = ⟨j⟩ := by
  simp [extendRenaming]

theorem extendRenaming_injective (hf : Set.InjOn f {x | x.id < n})
    (hDrawn : ∀ x : Var, x.id < n → (f x).id < j) :
    Function.Injective (extendRenaming f n j) := by
  intro x y h
  unfold extendRenaming at h
  by_cases hx : x.id < n <;> by_cases hy : y.id < n
  · rw [if_pos hx, if_pos hy] at h
    exact hf hx hy h
  · rw [if_pos hx, if_neg hy] at h
    have hLt := hDrawn x hx
    rw [h] at hLt
    simp at hLt
  · rw [if_neg hx, if_pos hy] at h
    have hLt := hDrawn y hy
    rw [← h] at hLt
    simp at hLt
  · rw [if_neg hx, if_neg hy] at h
    have hEq : j + (x.id - n) = j + (y.id - n) := congrArg Var.id h
    have hId : x.id = y.id := by omega
    exact congrArg Var.mk hId

/-- When a variable is drawn, the branch with the next variable of its own mirrors as before. -/
theorem MirroredBy.fresh (h : b.MirroredBy f k s) (hk : k ≤ j) :
    b.fresh.2.MirroredBy (extendRenaming f b.supply j) (j + 1) s where
  injective := by
    refine extendRenaming_injective (fun x _ y _ hxy => h.injective hxy) fun x hx => ?_
    exact Nat.lt_of_lt_of_le (h.drawn x hx) hk
  drawn := by
    intro x hx
    by_cases hOld : x.id < b.supply
    · rw [extendRenaming_below hOld]
      have hLt := h.drawn x hOld
      omega
    · have hNew : x.id < b.supply + 1 := hx
      have hId : x.id - b.supply = 0 := by omega
      simp [extendRenaming, hOld, hId]
  fits := h.fits.fresh
  substitution_eq := by
    rw [h.substitution_eq]
    refine Substitution.rename_congr h.fits.bindings_over fun t ht => ?_
    exact ht.rename_congr fun x hx => (extendRenaming_below hx).symm

/-- A branch that knows nothing is mirrored by a substitution that knows nothing. -/
theorem mirrored_start (hf : Set.InjOn f {x | x.id < n})
    (hDrawn : ∀ x : Var, x.id < n → (f x).id < k) : (start n).Mirrored n f k .empty := by
  refine ⟨Nat.le_refl n, extendRenaming f n k, ⟨extendRenaming_injective hf hDrawn, ?_,
    fits_start n, rfl⟩, fun x hx => extendRenaming_below hx⟩
  intro x (hx : x.id < n)
  rw [extendRenaming_below hx]
  exact hDrawn x hx

end Branch

/-! ### Goals -/

/-- The pooled goal goes the same way as the goal, wherever branches mirror each other under a renaming
that, for the variables below `n`, is the one given. -/
def PooledGoal.Follows (n : Nat) (f : Var → Var) (g : Goal) (g' : PooledGoal) : Prop :=
  ∀ c k b s, b.Mirrored n f k s → Alike (Branch.Mirrored n f) k (g c b) (g' c s)

namespace PooledGoal.Follows

variable {n : Nat} {f : Var → Var} {g h : Goal} {g' h' : PooledGoal}

theorem conj (hg : Follows n f g g') (hh : Follows n f h h') :
    Follows n f (g.conj h) (g'.conj h') :=
  fun c k b s hMirrored => (hg c k b s hMirrored).bind (fun hLe hr => hr.later hLe)
    fun j _ r q hr => hh c j r q hr

theorem disj (hg : Follows n f g g') (hh : Follows n f h h') :
    Follows n f (g.disj h) (g'.disj h') :=
  fun c k b s hMirrored => (hg c k b s hMirrored).append Branch.Mirrored.later
    (.delay (hh c k b s hMirrored))

theorem once (hg : Follows n f g g') : Follows n f g.once g'.once :=
  fun c k b s hMirrored => (hg c k b s hMirrored).first

theorem withScope (o : Scope.Override) (hg : Follows n f g g') :
    Follows n f (g.withScope o) (g'.withScope o) :=
  fun _ k b s hMirrored => hg _ k b s hMirrored

/-- A goal that draws no variables, if it treats renamed branches as the branches themselves. -/
theorem ofGoal {g' : Goal}
    (h : ∀ (γ : Var → Var) (m : Nat) (b r : Branch) (c : Context), Function.Injective γ → n ≤ m →
      (∀ x : Var, x.id < n → γ x = f x) → b.Renamed γ m r →
      Search.Twins (Branch.Renamed γ m) (g c b) (g' c r)) :
    Follows n f g (.ofGoal g') := by
  -- No variable is drawn, so one renaming serves for all branches of the goal.
  intro c k b s ⟨hSupply, γ, hMirrored, hAgree⟩
  have hTwins := h γ b.supply b ⟨s, 0⟩ c hMirrored.injective hSupply hAgree
    ⟨hMirrored.fits, rfl, hMirrored.substitution_eq⟩
  unfold PooledGoal.ofGoal
  generalize g c b = search at hTwins ⊢
  generalize g' c ⟨s, 0⟩ = search' at hTwins ⊢
  induction hTwins with
  | done => exact .done
  | @ok b' r' _ _ hRenamed _ ih =>
      refine .ok ?_ ih
      have hDrawn : ∀ x : Var, x.id < b'.supply → (γ x).id < k := by
        rw [hRenamed.supply_eq]
        exact hMirrored.drawn
      exact ⟨hRenamed.supply_eq ▸ hSupply, γ,
        ⟨hMirrored.injective, hDrawn, hRenamed.fits, hRenamed.substitution_eq⟩, hAgree⟩
  | error _ ih => exact .error ih
  | delay _ ih => exact .delay ih
  | ask _ ih => exact .ask ih

theorem conjAll {α : Type} {l : List α} {G : α → Goal} {G' : α → PooledGoal}
    (h : ∀ x ∈ l, Follows n f (G x) (G' x)) :
    Follows n f (.conjAll (l.map G)) (.conjAll (l.map G')) := by
  cases l with
  | nil =>
      exact .ofGoal fun γ m b r c _ _ _ hRenamed => .unit hRenamed
  | cons x rest =>
      obtain ⟨hHead, hRest⟩ := List.forall_mem_cons.mp h
      show Follows n f ((rest.map G).foldl .conj (G x)) ((rest.map G').foldl .conj (G' x))
      generalize G x = first at hHead
      generalize G' x = first' at hHead
      clear h
      induction rest generalizing first first' with
      | nil => exact hHead
      | cons y rest ih =>
          obtain ⟨hNext, hRest⟩ := List.forall_mem_cons.mp hRest
          exact ih hRest _ _ (hHead.conj hNext)

theorem disjAll {α : Type} {l : List α} {G : α → Goal} {G' : α → PooledGoal}
    (h : ∀ x ∈ l, Follows n f (G x) (G' x)) :
    Follows n f (.disjAll (l.map G)) (.disjAll (l.map G')) := by
  induction l with
  | nil => exact .ofGoal fun γ m b r c _ _ _ _ => .done
  | cons x rest ih =>
      obtain ⟨hHead, hRest⟩ := List.forall_mem_cons.mp h
      cases rest with
      | nil => exact hHead
      | cons y rest => exact hHead.disj (ih hRest)

/-- The goal is applied to the next variable of the branch, the pooled goal to the variable that it
draws. -/
theorem fresh {F : Term → Goal} {F' : Term → PooledGoal}
    (h : ∀ m, n ≤ m → ∀ γ : Var → Var, (∀ x : Var, x.id < n → γ x = f x) →
      Follows (m + 1) γ (F (.var ⟨m⟩)) (F' (.var (γ ⟨m⟩)))) :
    Follows n f (.fresh F) (.fresh F') := by
  -- The renaming is extended by the variable that is drawn. It still is the one given below `n`, and
  -- no more is asked of it once the name is out of scope.
  intro c k b s ⟨hSupply, g, hMirrored, hAgree⟩
  refine .draw fun j hj => ?_
  have hFresh := hMirrored.fresh hj
  have hExtend (x : Var) (hx : x.id < n) :
      Branch.extendRenaming g b.supply j x = f x := by
    rw [Branch.extendRenaming_below (Nat.lt_of_lt_of_le hx hSupply), hAgree x hx]
  have hNext := h b.supply hSupply _ hExtend c (j + 1) b.fresh.2 s
    ⟨Nat.le_refl _, _, hFresh, fun _ _ => rfl⟩
  rw [Branch.extendRenaming_self] at hNext
  exact hNext.mono fun i r q _ hr => hr.restrict (Nat.le_succ_of_le hSupply) hExtend

end PooledGoal.Follows

/-! ### Formulas -/

namespace Formula

/-- The properties that the formula is about are read without variables. All relations that have a
name of their own do so, while a property given from outside could be read as any term. -/
inductive ReadsData : Formula → Prop where
  | succeed : ReadsData .succeed
  | fail : ReadsData .fail
  | eq (t u : Term) : ReadsData (.eq t u)
  | conj {g h : Formula} (hg : ReadsData g) (hh : ReadsData h) : ReadsData (.conj g h)
  | disj {g h : Formula} (hg : ReadsData g) (hh : ReadsData h) : ReadsData (.disj g h)
  | conjAll {gs : List Formula} (h : ∀ g ∈ gs, ReadsData g) : ReadsData (.conjAll gs)
  | disjAll {gs : List Formula} (h : ∀ g ∈ gs, ReadsData g) : ReadsData (.disjAll gs)
  | fresh {x : Var} {g : Formula} (hg : ReadsData g) : ReadsData (.fresh x g)
  | fresh2 {x y : Var} {g : Formula} (hg : ReadsData g) : ReadsData (.fresh2 x y g)
  | once {g : Formula} (hg : ReadsData g) : ReadsData (.once g)
  | memberOf (t : Term) (values : List Term) : ReadsData (.memberOf t values)
  | unary (r : Unary) (t : Term) : ReadsData (.unary r t)
  | binary {r : Binary} (hr : r.Closed) (t u : Term) : ReadsData (.binary r t u)
  | carries (element name value : Term) : ReadsData (.carries element name value)
  | withScope (o : Scope.Override) {g : Formula} (hg : ReadsData g) : ReadsData (.withScope o g)

variable {n : Nat} {f : Var → Var} {ρ : Valuation}

/-- A term whose names stand for terms within `n`, renamed for a branch that has used more. -/
theorem within_and_rename (hρ : ∀ x, (ρ x).Within (fun _ => True) n) {m : Nat} {γ : Var → Var}
    (hm : n ≤ m) (hAgree : ∀ x : Var, x.id < n → γ x = f x) (t : Term) :
    (t.replace ρ).Within (fun _ => True) m ∧
      t.replace (fun x => (ρ x).rename f) = (t.replace ρ).rename γ := by
  have hWithin := Term.within_replace hρ t
  refine ⟨hWithin.mono hm, ?_⟩
  rw [← Term.rename_replace]
  exact (hWithin.rename_congr hAgree).symm

/-- What follows with one name more in scope follows when the name is bound. -/
theorem follows_bind {x : Var} {G : Valuation → Goal} {H : Valuation → PooledGoal}
    (h : ∀ m γ ρ, (∀ y, (ρ y).Within (fun _ => True) m) →
      PooledGoal.Follows m γ (G ρ) (H fun y => (ρ y).rename γ))
    (hρ : ∀ y, (ρ y).Within (fun _ => True) n) :
    PooledGoal.Follows n f (.fresh fun t => G (Function.update ρ x t))
      (.fresh fun t => H (Function.update (fun y => (ρ y).rename f) x t)) := by
  refine .fresh fun m hm γ hAgree => ?_
  have hUpdate : Function.update (fun y => (ρ y).rename f) x (.var (γ ⟨m⟩)) =
      fun y => (Function.update ρ x (.var ⟨m⟩) y).rename γ := by
    funext y
    by_cases hEq : y = x
    · rw [hEq, Function.update_self, Function.update_self, Term.rename_var]
    · rw [Function.update_of_ne hEq, Function.update_of_ne hEq]
      exact ((hρ y).rename_congr hAgree).symm
  rw [hUpdate]
  refine h (m + 1) γ _ fun y => ?_
  by_cases hEq : y = x
  · rw [hEq, Function.update_self]
    exact Term.built_var.mpr (Nat.lt_succ_self m)
  · rw [Function.update_of_ne hEq]
    exact (hρ y).mono (Nat.le_succ_of_le hm)

/-- The pooled goal of a formula goes the same way as its goal. -/
theorem ReadsData.follows {g : Formula} (hg : g.ReadsData)
    (hρ : ∀ x, (ρ x).Within (fun _ => True) n) :
    PooledGoal.Follows n f (g.goal ρ) (g.pooled fun x => (ρ x).rename f) := by
  induction hg generalizing n f ρ with
  | succeed => exact .ofGoal fun γ m b r c _ _ _ hRenamed => .unit hRenamed
  | fail => exact .ofGoal fun γ m b r c _ _ _ _ => .done
  | eq t u =>
      refine .ofGoal fun γ m b r c hγ hm hAgree hRenamed => ?_
      obtain ⟨ht, hRename⟩ := within_and_rename hρ hm hAgree t
      obtain ⟨hu, hRename'⟩ := within_and_rename hρ hm hAgree u
      rw [hRename, hRename']
      exact Relation.twins_unify hγ hRenamed ht hu
  | conj _ _ ihg ihh => exact (ihg hρ).conj (ihh hρ)
  | disj _ _ ihg ihh => exact (ihg hρ).disj (ihh hρ)
  | conjAll _ ih =>
      rw [goal, goals_eq, pooled, pooledAll_eq]
      exact .conjAll fun g hg => ih g hg hρ
  | disjAll _ ih =>
      rw [goal, goals_eq, pooled, pooledAll_eq]
      exact .disjAll fun g hg => ih g hg hρ
  | fresh _ ih => exact follows_bind (fun m γ ρ hρ => ih hρ) hρ
  | @fresh2 x y g _ ih =>
      refine follows_bind (G := fun ρ => .fresh fun u => g.goal (Function.update ρ y u))
        (H := fun ρ => .fresh fun u => g.pooled (Function.update ρ y u)) (fun m γ ρ hρ => ?_) hρ
      exact follows_bind (fun m γ ρ hρ => ih hρ) hρ
  | once _ ih => exact (ih hρ).once
  | memberOf t values =>
      refine .ofGoal fun γ m b r c hγ hm hAgree hRenamed => ?_
      obtain ⟨ht, hRename⟩ := within_and_rename hρ hm hAgree t
      have hValues : values.map (Term.replace fun x => (ρ x).rename f) =
          (values.map (Term.replace ρ)).map (Term.rename γ) := by
        rw [List.map_map]
        exact List.map_congr_left fun u _ => (within_and_rename hρ hm hAgree u).2
      rw [hRename, hValues]
      exact Relation.twins_memberOf hγ hRenamed ht
        (List.forall_mem_map.mpr fun u _ => (within_and_rename hρ hm hAgree u).1) c
  | unary r t =>
      refine .ofGoal fun γ m b q c hγ hm hAgree hRenamed => ?_
      obtain ⟨ht, hRename⟩ := within_and_rename hρ hm hAgree t
      rw [hRename]
      exact r.twins hγ hRenamed ht c
  | binary hr t u =>
      refine .ofGoal fun γ m b q c hγ hm hAgree hRenamed => ?_
      obtain ⟨ht, hRename⟩ := within_and_rename hρ hm hAgree t
      obtain ⟨hu, hRename'⟩ := within_and_rename hρ hm hAgree u
      rw [hRename, hRename']
      exact Binary.twins hr hγ hRenamed ht hu c
  | carries e l v =>
      refine .ofGoal fun γ m b q c hγ hm hAgree hRenamed => ?_
      obtain ⟨he, hRename⟩ := within_and_rename hρ hm hAgree e
      obtain ⟨hl, hRename'⟩ := within_and_rename hρ hm hAgree l
      obtain ⟨hv, hRename''⟩ := within_and_rename hρ hm hAgree v
      rw [hRename, hRename', hRename'']
      exact Relation.twins_carries hγ hRenamed he hl hv c
  | withScope o _ ih => exact (ih hρ).withScope o

end Formula

end PageLogic
