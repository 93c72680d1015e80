import PageLogic.Proofs.Formula.Syntax
import PageLogic.Proofs.Search.Invariance
/-!
Searches that share one supply of variables. A branch numbers its variables by itself, and another
branch may give the same numbers to variables of its own. Here every variable is drawn from a pool at
the moment when a goal asks for it, so that two searches which are pulled in turns never have a
variable in common, and which variables a search gets depends on when it is pulled. Everything else is
as in `Search` and `Goal`.
-/
namespace PageLogic

/-- What a pull shows: the reified term of an answer, a failure, or the end. -/
abbrev Outcome := Option (Except Error Term)

/-- What the pull shows of a term. -/
def Pulled.outcome (t : Term) : Pulled → Outcome
  | .item i _ => some (i.map (·.reify t))
  | .ended => none

/-- What is left after the pull. -/
def Pulled.rest : Pulled → Search
  | .item _ rest => rest
  | .ended => .done

/-- What the first `n` pulls show of a term. -/
def Search.outcomes {σ : Type} (o : Oracle σ) (t : Term) : (n : Nat) → Search → World σ → List Outcome
  | 0, _, _ => []
  | n + 1, s, w =>
    (s.pull o w).1.outcome t :: outcomes o t n (s.pull o w).1.rest (s.pull o w).2

/-- As `Search`, with the variables drawn from a pool. -/
inductive PooledSearch where
  | done
  | emit (item : Except Error Substitution) (rest : PooledSearch)
  | delay (rest : Unit → PooledSearch)
  | ask (q : Question) (next : Except Fault q.Value → PooledSearch)
  /-- Draws the next variable. -/
  | draw (next : Var → PooledSearch)

namespace PooledSearch

def append : PooledSearch → PooledSearch → PooledSearch
  | .done, t => t
  | .emit item rest, t => .emit item (append rest t)
  | .delay rest, t => .delay fun u => append (rest u) t
  | .ask q next, t => .ask q fun r => append (next r) t
  | .draw next, t => .draw fun x => append (next x) t

def bind : PooledSearch → (Substitution → PooledSearch) → PooledSearch
  | .done, _ => .done
  | .emit (.ok s) rest, f => .delay fun _ => append (f s) (bind rest f)
  | .emit (.error e) rest, f => .emit (.error e) (bind rest f)
  | .delay rest, f => .delay fun u => bind (rest u) f
  | .ask q next, f => .ask q fun r => bind (next r) f
  | .draw next, f => .draw fun x => bind (next x) f

def first : PooledSearch → PooledSearch
  | .done => .done
  | .emit item _ => .emit item .done
  | .delay rest => .delay fun u => first (rest u)
  | .ask q next => .ask q fun r => first (next r)
  | .draw next => .draw fun x => first (next x)

/-- A search that draws no variables. Relations make no endless supplies, and none is kept. -/
def ofSearch : Search → PooledSearch
  | .done => .done
  | .emit item rest => .emit (item.map (·.substitution)) (ofSearch rest)
  | .note _ rest => ofSearch rest
  | .delay rest => .delay fun u => ofSearch (rest u)
  | .ask q next => .ask q fun r => ofSearch (next r)
  | .forever .. => .done
  | .seek .. => .done

/-- Draws the variables that stand before the first item, question or delay. `k` is the next variable
of the pool, before and after. -/
def settle : PooledSearch → (k : Nat) → PooledSearch × Nat
  | .draw next, k => settle (next ⟨k⟩) (k + 1)
  | s, k => (s, k)

/-- The outcome of one pull. -/
inductive Pulled where
  | item (i : Except Error Substitution) (rest : PooledSearch)
  | ended

/-- The next item and what is left after it, with the next variable of the pool and the oracle's
state. -/
def pull {σ : Type} (o : Oracle σ) : PooledSearch → Nat → σ → Pulled × Nat × σ
  | .done, k, s => (.ended, k, s)
  | .emit item rest, k, s => (.item item rest, k, s)
  | .delay rest, k, s => pull o (rest ()) k s
  | .ask q next, k, s => pull o (next (o.answer q s).1) k (o.answer q s).2
  | .draw next, k, s => pull o (next ⟨k⟩) (k + 1) s

/-- What the pull shows of a term. -/
def Pulled.outcome (t : Term) : Pulled → Outcome
  | .item i _ => some (i.map (·.reify t))
  | .ended => none

/-- What is left after the pull. -/
def Pulled.rest : Pulled → PooledSearch
  | .item _ rest => rest
  | .ended => .done

variable {σ : Type} {o : Oracle σ} {K : σ → Prop}

theorem le_settle (s : PooledSearch) (k : Nat) : k ≤ (s.settle k).2 := by
  induction s generalizing k with
  | draw next ih => exact Nat.le_of_succ_le (ih ⟨k⟩ (k + 1))
  | _ => exact Nat.le_refl k

/-- No variable is drawn twice. -/
theorem le_pull (o : Oracle σ) (s : PooledSearch) (k : Nat) (state : σ) :
    k ≤ (s.pull o k state).2.1 := by
  induction s generalizing k state with
  | done => exact Nat.le_refl k
  | emit item rest _ => exact Nat.le_refl k
  | delay rest ih => exact ih () k state
  | ask q next ih => exact ih _ k _
  | draw next ih => exact Nat.le_of_succ_le (ih ⟨k⟩ (k + 1) state)

theorem pull_keeps (hKeeps : o.Keeps K) (s : PooledSearch) (k : Nat) {state : σ} (hState : K state) :
    K (s.pull o k state).2.2 := by
  induction s generalizing k state with
  | done => exact hState
  | emit item rest _ => exact hState
  | delay rest ih => exact ih () k hState
  | ask q next ih => exact ih _ k (hKeeps q _ hState)
  | draw next ih => exact ih ⟨k⟩ (k + 1) hState

end PooledSearch

/-- As `Goal`, for pooled searches. -/
abbrev PooledGoal := Context → Substitution → PooledSearch

namespace PooledGoal

/-- A goal that draws no variables. -/
def ofGoal (g : Goal) : PooledGoal := fun c s => .ofSearch (g c ⟨s, 0⟩)

def conj (g h : PooledGoal) : PooledGoal := fun c s => (g c s).bind (h c)

def disj (g h : PooledGoal) : PooledGoal := fun c s => (g c s).append (.delay fun _ => h c s)

def conjAll : List PooledGoal → PooledGoal
  | [] => ofGoal .succeed
  | g :: rest => rest.foldl conj g

def disjAll : List PooledGoal → PooledGoal
  | [] => ofGoal .fail
  | [g] => g
  | g :: rest => disj g (disjAll rest)

/-- Applies the goal made from a variable of the pool. -/
def fresh (f : Term → PooledGoal) : PooledGoal := fun c s => .draw fun x => f (.var x) c s

def once (g : PooledGoal) : PooledGoal := fun c s => (g c s).first

def withScope (o : Scope.Override) (g : PooledGoal) : PooledGoal := fun c s =>
  g { c with scope := c.scope.overridden o } s

end PooledGoal

namespace Formula

mutual

/-- The goal of a formula, as `goal`, for pooled searches. -/
def pooled : Formula → Valuation → PooledGoal
  | .succeed, _ => .ofGoal .succeed
  | .fail, _ => .ofGoal .fail
  | .eq t u, ρ => .ofGoal (.eq (t.replace ρ) (u.replace ρ))
  | .conj g h, ρ => (g.pooled ρ).conj (h.pooled ρ)
  | .disj g h, ρ => (g.pooled ρ).disj (h.pooled ρ)
  | .conjAll gs, ρ => .conjAll (pooledAll gs ρ)
  | .disjAll gs, ρ => .disjAll (pooledAll gs ρ)
  | .fresh x g, ρ => .fresh fun t => g.pooled (Function.update ρ x t)
  | .fresh2 x y g, ρ =>
    .fresh fun t => .fresh fun u => g.pooled (Function.update (Function.update ρ x t) y u)
  | .once g, ρ => .once (g.pooled ρ)
  | .memberOf t values, ρ => .ofGoal (.memberOf (t.replace ρ) (values.map (Term.replace ρ)))
  | .unary r t, ρ => .ofGoal (r.goal (t.replace ρ))
  | .binary r t u, ρ => .ofGoal (r.goal (t.replace ρ) (u.replace ρ))
  | .carries e n v, ρ => .ofGoal (Relation.carries (e.replace ρ) (n.replace ρ) (v.replace ρ))
  | .withScope o g, ρ => .withScope o (g.pooled ρ)

def pooledAll : List Formula → Valuation → List PooledGoal
  | [], _ => []
  | g :: rest, ρ => g.pooled ρ :: pooledAll rest ρ

end

theorem pooledAll_eq (gs : List Formula) (ρ : Valuation) :
    pooledAll gs ρ = gs.map fun g => g.pooled ρ := by
  induction gs with
  | nil => rfl
  | cons g rest ih => rw [pooledAll, ih, List.map_cons]

end Formula

/-! ### Searches that go the same way -/

/-- The two searches ask the same questions and deliver items that go together, whatever the answers
and whatever variables are drawn, as long as none below `k` is. `R` says which branches go together when
the next variable of the pool is known. -/
inductive Alike (R : Nat → Branch → Substitution → Prop) : Nat → Search → PooledSearch → Prop where
  | done {k : Nat} : Alike R k .done .done
  | ok {k : Nat} {b : Branch} {s : Substitution} {rest : Search} {rest' : PooledSearch}
      (h : R k b s) (hRest : Alike R k rest rest') :
      Alike R k (.emit (.ok b) rest) (.emit (.ok s) rest')
  | error {k : Nat} {e : Error} {rest : Search} {rest' : PooledSearch}
      (hRest : Alike R k rest rest') :
      Alike R k (.emit (.error e) rest) (.emit (.error e) rest')
  | delay {k : Nat} {rest : Unit → Search} {rest' : Unit → PooledSearch}
      (h : Alike R k (rest ()) (rest' ())) : Alike R k (.delay rest) (.delay rest')
  | ask {k : Nat} {q : Question} {next : Except Fault q.Value → Search}
      {next' : Except Fault q.Value → PooledSearch} (h : ∀ r, Alike R k (next r) (next' r)) :
      Alike R k (.ask q next) (.ask q next')
  | draw {k : Nat} {s : Search} {next : Var → PooledSearch}
      (h : ∀ j, k ≤ j → Alike R (j + 1) s (next ⟨j⟩)) : Alike R k s (.draw next)

namespace Alike

variable {R R' : Nat → Branch → Substitution → Prop} {j k : Nat} {s t : Search}
  {s' t' : PooledSearch}

theorem mono (hR : ∀ j b r, k ≤ j → R j b r → R' j b r) (h : Alike R k s s') :
    Alike R' k s s' := by
  induction h with
  | done => exact .done
  | ok h _ ih => exact .ok (hR _ _ _ (Nat.le_refl _) h) (ih hR)
  | error _ ih => exact .error (ih hR)
  | delay _ ih => exact .delay (ih hR)
  | ask _ ih => exact .ask fun r => ih r hR
  | draw _ ih =>
      exact .draw fun j hj => ih j hj fun i b r hi =>
        hR i b r (Nat.le_trans hj (Nat.le_of_succ_le hi))

/-- What holds whatever is drawn from `k` on holds if drawing begins later. -/
theorem later (hR : ∀ {i j b r}, i ≤ j → R i b r → R j b r) (hk : k ≤ j) (h : Alike R k s s') :
    Alike R j s s' := by
  induction h generalizing j with
  | done => exact .done
  | ok h _ ih => exact .ok (hR hk h) (ih hk)
  | error _ ih => exact .error (ih hk)
  | delay _ ih => exact .delay (ih hk)
  | ask _ ih => exact .ask fun r => ih r hk
  | draw h _ => exact .draw fun i hi => h i (Nat.le_trans hk hi)

theorem append (hR : ∀ {i j b r}, i ≤ j → R i b r → R j b r) (h : Alike R k s s')
    (ht : Alike R k t t') : Alike R k (s.append t) (s'.append t') := by
  induction h with
  | done => exact ht
  | ok h _ ih => exact .ok h (ih ht)
  | error _ ih => exact .error (ih ht)
  | delay _ ih => exact .delay (ih ht)
  | ask _ ih => exact .ask fun r => ih r ht
  | draw _ ih =>
      exact .draw fun j hj => ih j hj (ht.later hR (Nat.le_succ_of_le hj))

/-- Branches that go together are continued by searches that go the same way. -/
theorem bind (hR' : ∀ {i j b r}, i ≤ j → R' i b r → R' j b r) {f : Branch → Search}
    {f' : Substitution → PooledSearch} (h : Alike R k s s')
    (hf : ∀ j, k ≤ j → ∀ b r, R j b r → Alike R' j (f b) (f' r)) :
    Alike R' k (s.bind f) (s'.bind f') := by
  induction h with
  | done => exact .done
  | ok h _ ih => exact .delay ((hf _ (Nat.le_refl _) _ _ h).append hR' (ih hf))
  | error _ ih => exact .error (ih hf)
  | delay _ ih => exact .delay (ih hf)
  | ask _ ih => exact .ask fun r => ih r hf
  | draw _ ih =>
      exact .draw fun j hj => ih j hj fun i hi =>
        hf i (Nat.le_trans hj (Nat.le_of_succ_le hi))

theorem first (h : Alike R k s s') : Alike R k s.first s'.first := by
  induction h with
  | done => exact .done
  | ok h _ _ => exact .ok h .done
  | error _ _ => exact .error .done
  | delay _ ih => exact .delay ih
  | ask _ ih => exact .ask ih
  | draw _ ih => exact .draw ih

/-- Drawing the variables that stand in front changes nothing. -/
theorem settle (h : Alike R k s s') : Alike R (s'.settle k).2 s (s'.settle k).1 := by
  induction s' generalizing k with
  | draw next ih =>
      cases h with
      | draw h => exact ih ⟨k⟩ (h k (Nat.le_refl k))
  | _ => exact h

/-- A search of this kind leaves no marks, so that nothing of it is settled. -/
theorem settle_own {σ : Type} (h : Alike R k s s') (w : World σ) : s.settle w = (s, w) := by
  induction h with
  | draw _ ih => exact ih _ (Nat.le_refl _)
  | _ => rfl

/-- Pulled where questions are answered the same, both show the same, and what is left of them goes the
same way again. -/
theorem pull {σ : Type} {o : Oracle σ} {K : σ → Prop} {a : Answers} {u u' : Term}
    (hReplies : ∀ q, o.Replies K q (a q)) (hR : ∀ j b r, R j b r → b.reify u = r.reify u')
    (h : Alike R k s s') {w : World σ} (hw : K w.state) {state : σ} (hState : K state) :
    (s.pull o w).1.outcome u = (s'.pull o k state).1.outcome u' ∧
      Alike R (s'.pull o k state).2.1 (s.pull o w).1.rest (s'.pull o k state).1.rest := by
  induction h generalizing w state with
  | done => exact ⟨rfl, .done⟩
  | @ok _ b r _ _ h hRest _ =>
      refine ⟨?_, hRest⟩
      show some (Except.ok (b.reify u)) = some (Except.ok (r.reify u'))
      rw [hR _ _ _ h]
  | error hRest _ => exact ⟨rfl, hRest⟩
  | delay _ ih => exact ih hw hState
  | @ask _ q next next' _ ih =>
      obtain ⟨hOwn, hw⟩ := hReplies q _ hw
      obtain ⟨hPooled, hState⟩ := hReplies q _ hState
      have hNext := ih (a q) (w := ⟨(o.answer q w.state).2, w.marks⟩) hw hState
      rw [Search.pull_ask, PooledSearch.pull, hOwn, hPooled]
      exact hNext
  | @draw k _ _ _ ih => exact ih k (Nat.le_refl k) hw hState

end Alike

end PageLogic
