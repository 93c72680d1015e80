import PageLogic.Proofs.Search.Delays
import PageLogic.Proofs.Search.Turns
import PageLogic.Proofs.Search.Watching
/-!
The algebra of goals. Conjunction and disjunction are associative, and conjunction distributes over the
disjunction in front of it: the two sides are the same goal, so not even the order in which their parts are
applied and pulled tells them apart. Units, and the membership of a list written as a disjunction, put off
other things than what they stand for, and agree with it once they are pulled.
-/
namespace PageLogic.Goal

variable {σ : Type}

/-- What comes of applying a goal and pulling `n` items: the items, and the world after them. -/
def trial (g : Goal) (o : Oracle σ) (n : Nat) (c : Context) (b : Branch) (w : World σ) :
    List Item × World σ :=
  ((g c b).settle w).1.pullsTo o n ((g c b).settle w).2

/-- The goals deliver the same items in the same order, and once an item is pulled they have done the same:
asked the same questions and left the same marks. -/
def Agrees (g h : Goal) : Prop :=
  ∀ {σ : Type} (o : Oracle σ) (c : Context) (b : Branch) (w : World σ) (n : Nat),
    (g.trial o n c b w).1 = (h.trial o n c b w).1 ∧ (0 < n → g.trial o n c b w = h.trial o n c b w)

/-- Nothing is pulled before the goal is applied, so what it does then can be left to the first pull. -/
theorem trial_succ (g : Goal) (o : Oracle σ) (n : Nat) (c : Context) (b : Branch) (w : World σ) :
    g.trial o (n + 1) c b w = (g c b).pullsTo o (n + 1) w :=
  Search.pullsTo_settle o n (g c b) w

/-- Goals whose searches differ in delays only agree. -/
theorem agrees_of_undelayed {g h : Goal} (hSame : ∀ c b, (g c b).undelayed = (h c b).undelayed) :
    g.Agrees h := by
  intro σ o c b w n
  cases n with
  | zero => exact ⟨rfl, nofun⟩
  | succ n =>
      have hTrial : g.trial o (n + 1) c b w = h.trial o (n + 1) c b w := by
        rw [trial_succ, trial_succ, Search.pullsTo_congr (hSame c b)]
      exact ⟨congrArg Prod.fst hTrial, fun _ => hTrial⟩

variable (a b c : Goal)

/-! ### Associativity and distribution -/

theorem conj_assoc : (a.conj b).conj c = a.conj (b.conj c) := by
  funext k s
  exact Search.bind_assoc (a k s) (b k) (c k)

theorem disj_assoc : (a.disj b).disj c = a.disj (b.disj c) := by
  funext k s
  exact Search.append_assoc (a k s) (.delay fun _ => b k s) (.delay fun _ => c k s)

/-- The second goal is applied when the first has no more answers, on both sides. -/
theorem disj_conj : (a.disj b).conj c = (a.conj c).disj (b.conj c) := by
  funext k s
  exact Search.bind_append (a k s) (.delay fun _ => b k s) (c k)

theorem fail_conj : fail.conj a = fail :=
  rfl

/-! ### Units -/

theorem succeed_conj : (succeed.conj a).Agrees a :=
  agrees_of_undelayed fun k s => Search.undelayed_unit_bind s (a k)

theorem conj_succeed : (a.conj succeed).Agrees a :=
  agrees_of_undelayed fun k s => Search.undelayed_bind_unit (a k s)

theorem fail_disj : (fail.disj a).Agrees a := by
  refine agrees_of_undelayed fun k s => ?_
  rw [disj, Search.undelayed_append]
  rfl

theorem disj_fail : (a.disj fail).Agrees a := by
  refine agrees_of_undelayed fun k s => ?_
  rw [disj, Search.undelayed_append]
  exact Search.append_done _

/-! ### Many goals -/

/-- All goals, joined from the right. -/
def conjRight : List Goal → Goal
  | [] => succeed
  | [g] => g
  | g :: h :: rest => g.conj (conjRight (h :: rest))

theorem foldl_conj (g : Goal) (rest : List Goal) : rest.foldl conj g = conjRight (g :: rest) := by
  induction rest generalizing g with
  | nil => rfl
  | cons h rest ih =>
      rw [List.foldl_cons, ih]
      cases rest with
      | nil => rfl
      | cons r rest => exact conj_assoc g h (conjRight (r :: rest))

theorem conjAll_eq_conjRight (goals : List Goal) : conjAll goals = conjRight goals := by
  cases goals with
  | nil => rfl
  | cons g rest => exact foldl_conj g rest

theorem disjAll_eq_chain (goals : List Goal) (k : Context) (s : Branch) :
    disjAll goals k s = Search.chain (goals.map fun g => g k s) := by
  induction goals with
  | nil => rfl
  | cons g rest ih =>
      cases rest with
      | nil => rfl
      | cons h rest =>
          rw [disjAll, disj, ih]
          · rfl
          · nofun

/-- Trying the values of a list in order is trying the equations with them in order. -/
theorem memberOf_agrees (t : Term) (values : List Term) :
    (memberOf t values).Agrees (disjAll (values.map (eq t))) := by
  refine agrees_of_undelayed fun k s => ?_
  induction values with
  | nil => rfl
  | cons value rest ih =>
      have hHead : (memberOf t (value :: rest) k s).undelayed =
          (eq t value k s).undelayed.append (memberOf t rest k s).undelayed :=
        Search.undelayed_append _ _
      rw [hHead, ih]
      -- The values end in an empty search, the disjunction ends in the search of its last goal.
      cases rest with
      | nil => exact Search.append_done _
      | cons next rest =>
          exact (Search.undelayed_append (eq t value k s) (.delay fun _ => disjAll _ k s)).symm

/-- The laws of goals, which the conjunction and the disjunction of many goals rely on. Where two goals are
equal they do everything at the same time; in particular, if the parts are watched goals, they leave the
marks of being applied and pulled in the same order. Where they agree they deliver the same items after
every number of pulls. A disjunction of many goals delivers the items of its searches in turn, as far as
each pull comes to an end. -/
theorem algebra_of_goals (goals : List Goal) (t : Term) (values : List Term) :
    (a.conj b).conj c = a.conj (b.conj c) ∧
      (a.disj b).disj c = a.disj (b.disj c) ∧
      (a.disj b).conj c = (a.conj c).disj (b.conj c) ∧
      fail.conj a = fail ∧
      (succeed.conj a).Agrees a ∧ (a.conj succeed).Agrees a ∧
      (fail.disj a).Agrees a ∧ (a.disj fail).Agrees a ∧
      conjAll goals = conjRight goals ∧
      (memberOf t values).Agrees (disjAll (values.map (eq t))) ∧
      ∀ {σ : Type} (o : Oracle σ) (k : Context) (s : Branch) (n : Nat) (w : World σ),
        (∀ limit, (disjAll goals k s).pulls? limit o n w =
          Search.turns? limit o n (goals.map fun g => g k s) w) ∧
        ∀ r, Search.turns? patience o n (goals.map fun g => g k s) w = some r →
          (disjAll goals k s).pullsTo o n w = r := by
  refine ⟨conj_assoc a b c, disj_assoc a b c, disj_conj a b c, fail_conj a, succeed_conj a, conj_succeed a,
    fail_disj a, disj_fail a, conjAll_eq_conjRight goals, memberOf_agrees t values, ?_⟩
  intro σ o k s n w
  have hTurns (limit : Nat) : (disjAll goals k s).pulls? limit o n w =
      Search.turns? limit o n (goals.map fun g => g k s) w := by
    rw [disjAll_eq_chain, Search.pulls?_chain]
  exact ⟨hTurns, fun r hr => Search.pullsTo_of_pulls? ((hTurns patience).trans hr)⟩

/-- Has no answers to questions. -/
def mute : Oracle Unit :=
  ⟨fun _ s => (.error ⟨.unexpected, ""⟩, s)⟩

def twice : Goal :=
  (succeed.disj succeed).watched "twice"

def granted : Goal :=
  succeed.watched "granted"

def refused : Goal :=
  fail.watched "refused"

theorem algebra_of_goals_watched :
    let k : Context := ⟨.everything⟩
    let s : Branch := .start 0
    ((twice.conj granted).conj refused).trial mute 1 k s (.of ()) =
        (twice.conj (granted.conj refused)).trial mute 1 k s (.of ()) ∧
      ((twice.conj (granted.conj refused)).trial mute 1 k s (.of ())).2.marks.reverse =
        [.applied "twice", .pulled "twice", .applied "granted", .pulled "granted", .applied "refused",
          .pulled "refused", .pulled "granted", .pulled "twice", .applied "granted", .pulled "granted",
          .applied "refused", .pulled "refused", .pulled "granted", .pulled "twice"] ∧
      (disjAll [refused, granted, twice] k s).pullsTo mute 2 (.of ()) =
        ([.ok s, .ok s], ⟨(), [.pulled "twice", .applied "twice", .pulled "granted", .pulled "granted",
          .applied "granted", .pulled "refused", .applied "refused"]⟩) := by
  intro k s
  obtain ⟨hConj, _, _, _, _, _, _, _, _, _, hDisj⟩ :=
    algebra_of_goals twice granted refused [refused, granted, twice] (.str "") []
  refine ⟨?_, by decide +kernel, (hDisj mute k s 2 (.of ())).2 _ rfl⟩
  rw [hConj]

end PageLogic.Goal
