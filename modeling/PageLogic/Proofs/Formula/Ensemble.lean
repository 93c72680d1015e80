import PageLogic.Proofs.Formula.Sharing
import PageLogic.Proofs.Page.Change
import Mathlib
/-!
Open searches do not disturb each other. An ensemble is a page with the searches that are open on it;
they share one supply of variables, are pulled in any order, and may be dropped at any time, while other
queries are run in between. As long as nobody changes the page, each of them shows at every pull what it
shows when it is pulled alone.
-/
namespace PageLogic

/-- A formula to search with, and a term to see in the answers. The names below `names` stand for
variables that exist beforehand. -/
structure Pursuit where
  context : Context
  formula : Formula
  names : Nat
  shown : Term

namespace Pursuit

/-- Each name below `n` stands for the variable that `f` gives it. -/
def naming (n : Nat) (f : Var → Var) : Valuation := fun x =>
  if x.id < n then .var (f x) else .bool false

theorem rename_naming (n : Nat) (f : Var → Var) :
    (fun x => (naming n id x).rename f) = naming n f := by
  funext x
  unfold naming
  split <;> rfl

theorem within_naming (n : Nat) (x : Var) : (naming n id x).Within (fun _ => True) n := by
  unfold naming
  split
  · next hx => exact Term.built_var.mpr hx
  · exact Term.built_of_vars (by simp [Term.vars])

/-- The search of the pursuit by itself. -/
def opened (q : Pursuit) (p : Page) : Search × World Page :=
  Goal.solve q.context q.names (q.formula.goal (naming q.names id)) (.of p)

/-- The term to see, where each name stands for a variable of its own. -/
def ownTerm (q : Pursuit) : Term :=
  q.shown.replace (naming q.names id)

/-- What the first `n` pulls show when the pursuit has the page and the variables to itself. -/
def alone (q : Pursuit) (p : Page) (n : Nat) : List Outcome :=
  (q.opened p).1.outcomes Page.oracle q.ownTerm n (q.opened p).2

/-- The variable that has the place of the name in the list. -/
def among (vars : List Var) (x : Var) : Var :=
  vars.getD x.id x

/-- The search of the pursuit among others, where the names stand for these variables. -/
def shared (q : Pursuit) (vars : List Var) : PooledSearch :=
  q.formula.pooled (naming q.names (among vars)) q.context .empty

/-- The term to see, where the names stand for these variables. -/
def sharedTerm (q : Pursuit) (vars : List Var) : Term :=
  q.shown.replace (naming q.names (among vars))

variable {vars : List Var} {n k : Nat}

theorem among_eq {x : Var} (hx : x.id < vars.length) : among vars x = vars[x.id] := by
  rw [among, List.getD_eq_getElem?_getD, List.getElem?_eq_getElem hx, Option.getD_some]

theorem among_injOn (hNodup : vars.Nodup) (hLength : vars.length = n) :
    Set.InjOn (among vars) {x | x.id < n} := by
  intro x hx y hy h
  subst hLength
  rw [among_eq hx, among_eq hy] at h
  exact congrArg Var.mk (hNodup.getElem_inj_iff.mp h)

theorem among_lt (hLength : vars.length = n) (hDrawn : ∀ x ∈ vars, x.id < k) (x : Var)
    (hx : x.id < n) : (among vars x).id < k := by
  subst hLength
  rw [among_eq hx]
  exact hDrawn _ (List.getElem_mem hx)

end Pursuit

/-- An open search with the term to see. Nothing is left of a search that has been dropped. -/
structure Stream where
  shown : Term
  rest : Option PooledSearch

/-- A page and the searches opened on it so far, with the next variable of their supply. -/
structure Ensemble where
  page : Page
  next : Nat
  streams : List Stream

namespace Ensemble

/-- A query that is not left open. -/
inductive Errand where
  | run (c : Context) (limit : Option Nat) (supply : Nat) (goal : Term → Goal)
  | holds (c : Context) (supply : Nat) (g : Goal)
  | solutionCount (c : Context) (supply : Nat) (g : Goal)
  /-- One question to the page itself. -/
  | ask (q : Question)

/-- The page after the errand. -/
def Errand.page (p : Page) : Errand → Page
  | .run c limit supply goal => (Goal.run Page.oracle c limit supply goal (.of p)).2.state
  | .holds c supply g => (Check.holds Page.oracle c supply g (.of p)).2.state
  | .solutionCount c supply g => (Check.solutionCount Page.oracle c supply g (.of p)).2.state
  | .ask q => (Page.oracle.answer q p).2

inductive Act where
  /-- Draws a variable, for anyone. -/
  | draw
  /-- Opens the search of a pursuit; its names stand for these variables. -/
  | solve (q : Pursuit) (vars : List Var)
  | pull (i : Nat)
  | drop (i : Nat)
  /-- Runs an errand that draws so many variables. -/
  | errand (r : Errand) (drawn : Nat)

/-- What a pull of the stream with this number showed. -/
structure Delivery where
  stream : Nat
  outcome : Outcome

/-- One act: the ensemble after it, and what a pull showed. A stream that has been dropped is not
pulled any more. -/
def step (e : Ensemble) : Act → Ensemble × List Delivery
  | .draw => ({ e with next := e.next + 1 }, [])
  | .solve q vars =>
    let (search, next) := (q.shared vars).settle e.next
    (⟨e.page, next, e.streams ++ [⟨q.sharedTerm vars, some search⟩]⟩, [])
  | .pull i =>
    match e.streams[i]? with
    | some ⟨shown, some search⟩ =>
      let (pulled, next, page) := search.pull Page.oracle e.next e.page
      (⟨page, next, e.streams.set i ⟨shown, some pulled.rest⟩⟩, [⟨i, pulled.outcome shown⟩])
    | _ => (e, [])
  | .drop i => ({ e with streams := e.streams.modify i fun s => { s with rest := none } }, [])
  | .errand r drawn => ({ e with page := r.page e.page, next := e.next + drawn }, [])

/-- The ensemble after some acts, in order. -/
def after (e : Ensemble) (acts : List Act) : Ensemble :=
  acts.foldl (fun e a => (e.step a).1) e

/-- What the pulls among some acts show, in order. -/
def deliveries (e : Ensemble) : List Act → List Delivery
  | [] => []
  | a :: rest => (e.step a).2 ++ deliveries (e.step a).1 rest

/-- What the pulls of the stream `i` show. -/
def delivered (e : Ensemble) (acts : List Act) (i : Nat) : List Outcome :=
  ((e.deliveries acts).filter fun d => d.stream = i).map (·.outcome)

/-- How often the stream `i` is pulled before it is dropped. -/
def pullsOf (i : Nat) : List Act → Nat
  | [] => 0
  | .pull j :: rest => if j = i then pullsOf i rest + 1 else pullsOf i rest
  | .drop j :: rest => if j = i then 0 else pullsOf i rest
  | _ :: rest => pullsOf i rest

/-- A page on which nothing has been opened; the variables below `k` are in use. -/
def start (p : Page) (k : Nat) : Ensemble := ⟨p, k, []⟩

theorem pullsOf_of_ne {a : Act} {i : Nat} (hPull : a ≠ .pull i) (hDrop : a ≠ .drop i)
    (rest : List Act) : pullsOf i (a :: rest) = pullsOf i rest := by
  cases a with
  | pull j => exact if_neg fun h => hPull (congrArg _ h)
  | drop j => exact if_neg fun h => hDrop (congrArg _ h)
  | _ => rfl

variable {p : Page} {e : Ensemble} {i : Nat}

theorem deliveries_append (e : Ensemble) (front behind : List Act) :
    e.deliveries (front ++ behind) = e.deliveries front ++ (e.after front).deliveries behind := by
  induction front generalizing e with
  | nil => rfl
  | cons a front ih =>
      rw [List.cons_append, deliveries, deliveries, ih, List.append_assoc]
      rfl

/-! ### What nobody changes -/

/-- A page that has been asked questions only is such a page after an errand. -/
theorem asked_errand (h : p.Asked e.page) (r : Errand) : p.Asked (r.page e.page) := by
  have hKeeps := p.keeps_asked
  cases r with
  | run c limit supply goal => exact Goal.run_keeps hKeeps c limit supply goal h
  | holds c supply g => exact Check.holds_keeps hKeeps c supply g h
  | solutionCount c supply g => exact Check.solutionCount_keeps hKeeps c supply g h
  | ask q => exact hKeeps q _ h

theorem asked_step (h : p.Asked e.page) (a : Act) : p.Asked (e.step a).1.page := by
  cases a with
  | draw => exact h
  | solve q vars => exact h
  | pull i =>
      rw [step]
      split
      · exact PooledSearch.pull_keeps p.keeps_asked _ _ h
      · exact h
  | drop i => exact h
  | errand r drawn => exact asked_errand h r

/-- Whatever the acts, the page is asked questions and nothing else. -/
theorem asked_after (h : p.Asked e.page) (acts : List Act) : p.Asked (e.after acts).page := by
  induction acts generalizing e with
  | nil => exact h
  | cons a rest ih => exact ih (asked_step h a)

theorem length_le_step (e : Ensemble) (a : Act) :
    e.streams.length ≤ (e.step a).1.streams.length := by
  cases a with
  | draw => exact Nat.le_refl _
  | solve q vars => simp [step]
  | pull i =>
      rw [step]
      split <;> simp
  | drop i => simp [step]
  | errand r drawn => exact Nat.le_refl _

theorem length_le_after (e : Ensemble) (acts : List Act) :
    e.streams.length ≤ (e.after acts).streams.length := by
  induction acts generalizing e with
  | nil => exact Nat.le_refl _
  | cons a rest ih => exact Nat.le_trans (e.length_le_step a) (ih (e.step a).1)

/-- Only streams that are there are pulled. -/
theorem stream_lt_of_mem_step {a : Act} {d : Delivery} (hd : d ∈ (e.step a).2) :
    a = .pull d.stream ∧ d.stream < e.streams.length := by
  cases a with
  | pull i =>
      rw [step] at hd
      split at hd
      · next hStream =>
          obtain rfl := List.mem_singleton.mp hd
          exact ⟨rfl, (List.getElem?_eq_some_iff.mp hStream).1⟩
      · cases hd
  | _ => cases hd

theorem stream_lt_of_mem_deliveries {acts : List Act} {d : Delivery} (hd : d ∈ e.deliveries acts) :
    d.stream < (e.after acts).streams.length := by
  induction acts generalizing e with
  | nil => cases hd
  | cons a rest ih =>
      rcases List.mem_append.mp hd with hd | hd
      · have hLt := (stream_lt_of_mem_step hd).2
        exact Nat.lt_of_lt_of_le hLt (e.length_le_after (a :: rest))
      · exact ih hd

/-! ### One stream among others -/

/-- The acts on other streams leave the stream as it is, and no variable is drawn twice. -/
theorem step_of_ne {a : Act} (hPull : a ≠ .pull i) (hDrop : a ≠ .drop i)
    (hi : i < e.streams.length) :
    (e.step a).1.streams[i]? = e.streams[i]? ∧ e.next ≤ (e.step a).1.next := by
  cases a with
  | draw => exact ⟨rfl, Nat.le_succ _⟩
  | solve q vars =>
      exact ⟨List.getElem?_append_left hi, PooledSearch.le_settle _ _⟩
  | pull j =>
      have hNe : j ≠ i := fun h => hPull (h ▸ rfl)
      rw [step]
      split
      · exact ⟨List.getElem?_set_ne hNe, PooledSearch.le_pull _ _ _ _⟩
      · exact ⟨rfl, Nat.le_refl _⟩
  | drop j =>
      have hNe : j ≠ i := fun h => hDrop (h ▸ rfl)
      exact ⟨List.getElem?_modify_ne _ _ hNe, Nat.le_refl _⟩
  | errand r drawn => exact ⟨rfl, Nat.le_add_right _ _⟩

/-- The stream `i` goes the same way as the search, up to the renaming of the variables below `n`. -/
structure Carries (p : Page) (n : Nat) (f : Var → Var) (t : Term) (s : Search) (i : Nat)
    (e : Ensemble) : Prop where
  asked : p.Asked e.page
  stream : ∃ rest, e.streams[i]? = some ⟨t.rename f, some rest⟩ ∧
    Alike (Branch.Mirrored n f) e.next s rest

namespace Carries

variable {n : Nat} {f : Var → Var} {t : Term} {s : Search}

theorem index_lt (h : Carries p n f t s i e) : i < e.streams.length := by
  obtain ⟨rest, hStream, _⟩ := h.stream
  exact (List.getElem?_eq_some_iff.mp hStream).1

/-- While others act, the stream waits. -/
theorem step_of_ne (h : Carries p n f t s i e) {a : Act} (hPull : a ≠ .pull i)
    (hDrop : a ≠ .drop i) : Carries p n f t s i (e.step a).1 := by
  obtain ⟨rest, hStream, hAlike⟩ := h.stream
  obtain ⟨hSame, hNext⟩ := Ensemble.step_of_ne hPull hDrop h.index_lt
  refine ⟨asked_step h.asked a, rest, hSame.trans hStream, ?_⟩
  exact hAlike.later Branch.Mirrored.later hNext

/-- A pull shows what a pull of the search shows, and what is left goes the same way. -/
theorem step_pull (h : Carries p n f t s i e) (ht : t.Within (fun _ => True) n) {w : World Page}
    (hw : p.Asked w.state) :
    (e.step (.pull i)).2 = [⟨i, (s.pull Page.oracle w).1.outcome t⟩] ∧
      Carries p n f t (s.pull Page.oracle w).1.rest i (e.step (.pull i)).1 := by
  obtain ⟨rest, hStream, hAlike⟩ := h.stream
  obtain ⟨hOutcome, hRest⟩ :=
    hAlike.pull p.replies_asked (fun _ _ _ hMirrored => hMirrored.reify_eq ht) hw h.asked
  have hStep : e.step (.pull i) =
      (⟨(rest.pull Page.oracle e.next e.page).2.2, (rest.pull Page.oracle e.next e.page).2.1,
        e.streams.set i ⟨t.rename f, some (rest.pull Page.oracle e.next e.page).1.rest⟩⟩,
        [⟨i, (rest.pull Page.oracle e.next e.page).1.outcome (t.rename f)⟩]) := by
    rw [step, hStream]
  have hPage := asked_step h.asked (.pull i)
  rw [hStep] at hPage ⊢
  refine ⟨by rw [hOutcome], hPage, _, List.getElem?_set_self h.index_lt, hRest⟩

end Carries

/-- Opened among others, the search of a pursuit goes the same way as by itself. -/
theorem carries_solve {q : Pursuit} (hData : q.formula.ReadsData) {vars : List Var}
    (hNodup : vars.Nodup) (hLength : vars.length = q.names) (hAsked : p.Asked e.page)
    (hDrawn : ∀ x ∈ vars, x.id < e.next) :
    Carries p q.names (Pursuit.among vars) q.ownTerm (q.opened p).1 e.streams.length
        (e.step (.solve q vars)).1 ∧
      p.Asked (q.opened p).2.state := by
  have hMirrored := Branch.mirrored_start (Pursuit.among_injOn hNodup hLength)
    (Pursuit.among_lt hLength hDrawn)
  have hAlike : Alike (Branch.Mirrored q.names (Pursuit.among vars)) e.next
      (q.formula.goal (Pursuit.naming q.names id) q.context (.start q.names)) (q.shared vars) := by
    rw [Pursuit.shared, ← Pursuit.rename_naming q.names (Pursuit.among vars)]
    exact hData.follows (Pursuit.within_naming q.names) q.context e.next _ _ hMirrored
  have hOpened : q.opened p = (q.formula.goal (Pursuit.naming q.names id) q.context
      (.start q.names), .of p) := hAlike.settle_own (.of p)
  rw [hOpened]
  refine ⟨⟨hAsked, ((q.shared vars).settle e.next).1, ?_, hAlike.settle⟩, .refl p⟩
  show (e.streams ++ [_])[e.streams.length]? = _
  rw [List.getElem?_concat_length, Pursuit.ownTerm, Pursuit.sharedTerm, Term.rename_replace,
    Pursuit.rename_naming]

/-! ### What a stream delivers -/

theorem delivered_cons (e : Ensemble) (a : Act) (rest : List Act) (i : Nat) :
    e.delivered (a :: rest) i =
      ((e.step a).2.filter fun d => d.stream = i).map (·.outcome) ++
        (e.step a).1.delivered rest i := by
  rw [delivered, deliveries, List.filter_append, List.map_append]
  rfl

theorem delivered_append (e : Ensemble) (front behind : List Act) (i : Nat) :
    e.delivered (front ++ behind) i =
      e.delivered front i ++ (e.after front).delivered behind i := by
  rw [delivered, deliveries_append, List.filter_append, List.map_append]
  rfl

theorem filter_step_of_ne {a : Act} (hPull : a ≠ .pull i) :
    (e.step a).2.filter (fun d => d.stream = i) = [] := by
  refine List.filter_eq_nil_iff.mpr fun d hd => ?_
  rw [decide_eq_true_eq]
  rintro rfl
  exact hPull (stream_lt_of_mem_step hd).1

/-- A stream that has been dropped shows nothing any more. -/
theorem delivered_of_dropped {t : Term} (h : e.streams[i]? = some ⟨t, none⟩) (acts : List Act) :
    e.delivered acts i = [] := by
  induction acts generalizing e with
  | nil => rfl
  | cons a rest ih =>
      rw [delivered_cons]
      by_cases hPull : a = .pull i
      · have hStep : e.step (.pull i) = (e, []) := by
          rw [step, h]
        rw [hPull, hStep]
        exact ih h
      · rw [filter_step_of_ne hPull]
        refine ih ?_
        by_cases hDrop : a = .drop i
        · rw [hDrop, step, List.getElem?_modify_eq, h]
          rfl
        · have hi := (List.getElem?_eq_some_iff.mp h).1
          rw [(step_of_ne hPull hDrop hi).1, h]

/-- What the stream shows among others is what the pulls of the search show. -/
theorem Carries.delivered_eq {n : Nat} {f : Var → Var} {t : Term} {s : Search}
    (h : Carries p n f t s i e) (ht : t.Within (fun _ => True) n) {w : World Page}
    (hw : p.Asked w.state) (acts : List Act) :
    e.delivered acts i = s.outcomes Page.oracle t (pullsOf i acts) w := by
  -- The search advances with the pulls of its stream only; all other acts keep what `Carries` says.
  induction acts generalizing e s w with
  | nil => rfl
  | cons a rest ih =>
      rw [delivered_cons]
      by_cases hPull : a = .pull i
      · subst hPull
        obtain ⟨hStep, hCarries⟩ := h.step_pull ht hw
        rw [hStep, ih hCarries (hw.pull s), pullsOf, if_pos rfl, Search.outcomes,
          List.filter_singleton]
        simp
      · rw [filter_step_of_ne hPull]
        by_cases hDrop : a = .drop i
        · subst hDrop
          obtain ⟨rest', hStream, _⟩ := h.stream
          have hDropped : (e.step (.drop i)).1.streams[i]? = some ⟨t.rename f, none⟩ := by
            rw [step, List.getElem?_modify_eq, hStream]
            rfl
          rw [delivered_of_dropped hDropped, pullsOf, if_pos rfl]
          rfl
        · rw [ih (h.step_of_ne hPull hDrop) hw, pullsOf_of_ne hPull hDrop]
          rfl

/-- Open searches do not disturb each other. Whatever else is opened, pulled, dropped and asked before
and after a pursuit is opened, the page is asked questions and nothing else, and the stream of the
pursuit shows, up to where it is dropped, what the pursuit shows when it has the page to itself. -/
theorem delivered_eq_alone (p : Page) (k : Nat) {front : List Act} {q : Pursuit} {vars : List Var}
    (hData : q.formula.ReadsData) (hNodup : vars.Nodup) (hLength : vars.length = q.names)
    (hDrawn : ∀ x ∈ vars, x.id < ((start p k).after front).next) :
    let i := ((start p k).after front).streams.length
    (∀ acts, p.Asked ((start p k).after acts).page) ∧
      ∀ behind, (start p k).delivered (front ++ .solve q vars :: behind) i =
        q.alone p (pullsOf i behind) := by
  intro i
  have hAsked := asked_after (e := start p k) (.refl p)
  refine ⟨hAsked, fun behind => ?_⟩
  have hFront : (start p k).delivered front i = [] := by
    rw [delivered, List.filter_eq_nil_iff.mpr, List.map_nil]
    intro d hd
    have hLt := stream_lt_of_mem_deliveries hd
    exact fun h => Nat.ne_of_lt hLt (of_decide_eq_true h)
  obtain ⟨hCarries, hOpened⟩ := carries_solve hData hNodup hLength (hAsked front) hDrawn
  have hShown : q.ownTerm.Within (fun _ => True) q.names :=
    Term.within_replace (Pursuit.within_naming q.names) q.shown
  have hStep : (((start p k).after front).step (.solve q vars)).2 = [] := rfl
  rw [delivered_append, hFront, List.nil_append, delivered_cons, hStep,
    hCarries.delivered_eq hShown hOpened behind]
  rfl

/-- The tags of a page are sought twice, with the same variables and in turns. The second stream shows
all of them and then the end, though the first is dropped on the way and questions come in between. -/
theorem tags_delivered_eq_alone :
    let p := Page.load "https://example.org/" ""
    let q : Pursuit := ⟨⟨⟨"*", "*"⟩⟩, .fresh ⟨2⟩ (.conj (.binary .tag (.var ⟨0⟩) (.var ⟨2⟩))
      (.eq (.var ⟨1⟩) (.var ⟨2⟩))), 2, .var ⟨1⟩⟩
    let vars : List Var := [⟨0⟩, ⟨1⟩]
    let front : List Act := [.solve q vars]
    let behind : List Act := [.pull 1, .pull 0, .errand (.ask (.elements "*")) 3, .pull 1, .drop 0,
      .draw, .pull 1, .pull 0, .pull 1]
    q.formula.ReadsData ∧ vars.Nodup ∧ vars.length = q.names ∧
      (∀ x ∈ vars, x.id < ((start p 2).after front).next) ∧
      (start p 2).delivered (front ++ .solve q vars :: behind) 1 =
        [some (.ok (.str "html")), some (.ok (.str "head")), some (.ok (.str "body")), none] := by
  intro p q vars front behind
  have hTag : Binary.Closed .tag := trivial
  have hData : q.formula.ReadsData := .fresh (.conj (.binary hTag _ _) (.eq _ _))
  have hNodup : vars.Nodup := by decide
  have hDrawn : ∀ x ∈ vars, x.id < ((start p 2).after front).next := by
    have hNext : ((start p 2).after front).next = 3 := rfl
    rw [hNext]
    decide
  have hAlone : q.alone p 4 =
      [some (.ok (.str "html")), some (.ok (.str "head")), some (.ok (.str "body")), none] := by
    cbv
  obtain ⟨_, hDelivered⟩ := delivered_eq_alone p 2 hData hNodup rfl hDrawn
  exact ⟨hData, hNodup, rfl, hDrawn, (hDelivered behind).trans hAlone⟩

end Ensemble

end PageLogic
