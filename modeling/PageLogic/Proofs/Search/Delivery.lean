import PageLogic.Goal
import Mathlib.Data.List.Basic
/-!
What a search delivers when its questions have fixed answers. `Search.Delivers` lists the items of a
search that ends by itself; pulls and visits show those items, one by one, and `Goal.run` collects
their branches up to the first failure.
-/
namespace PageLogic

/-- A fixed answer to every question. -/
abbrev Answers := (q : Question) → Except Fault q.Value

/-- The value that a reading comes to. -/
def Reading.outcome {α : Type} (a : Answers) : Reading α → Except Fault α
  | .value x => .ok x
  | .fault e => .error e
  | .ask q next => (next (a q)).outcome a

namespace Oracle

variable {σ : Type} {o : Oracle σ} {a : Answers}

/-- In every state of the kind `K` the oracle answers the question so, and the state that it leaves
is of that kind again. -/
def Replies (o : Oracle σ) (K : σ → Prop) (q : Question) (r : Except Fault q.Value) : Prop :=
  ∀ s, K s → (o.answer q s).1 = r ∧ K (o.answer q s).2

/-- The state after some questions, asked in order. -/
def after (o : Oracle σ) (questions : List Question) (s : σ) : σ :=
  questions.foldl (fun s q => (o.answer q s).2) s

/-- However many questions have been asked, each is answered as the list of answers says. -/
def Steady (o : Oracle σ) (a : Answers) (s : σ) : Prop :=
  ∀ questions q, (o.answer q (o.after questions s)).1 = a q

/-- A steady oracle stays so when it is asked. -/
theorem Steady.next {s : σ} (h : o.Steady a s) (q : Question) : o.Steady a (o.answer q s).2 :=
  fun questions => h (q :: questions)

theorem replies_of_steady (o : Oracle σ) (a : Answers) (q : Question) :
    o.Replies (o.Steady a) q (a q) :=
  fun _ hs => ⟨hs [] q, hs.next q⟩

end Oracle

namespace Search

variable {σ : Type} {o : Oracle σ} {K : σ → Prop} {a : Answers} {s t : Search} {items : List Item}

/-- In states of the kind `K` the search delivers these items, one after the other, and then ends. -/
inductive Delivers (o : Oracle σ) (K : σ → Prop) : Search → List Item → Prop where
  | done : Delivers o K .done []
  | emit {item : Item} {rest : Search} {items : List Item} (h : Delivers o K rest items) :
      Delivers o K (.emit item rest) (item :: items)
  | note {m : Mark} {rest : Search} {items : List Item} (h : Delivers o K rest items) :
      Delivers o K (.note m rest) items
  | delay {rest : Unit → Search} {items : List Item} (h : Delivers o K (rest ()) items) :
      Delivers o K (.delay rest) items
  | ask {q : Question} {r : Except Fault q.Value} {next : Except Fault q.Value → Search}
      {items : List Item} (hReply : o.Replies K q r) (h : Delivers o K (next r) items) :
      Delivers o K (.ask q next) items

/-- The items of the first `n` pulls. -/
def pulls (o : Oracle σ) : Nat → Search → World σ → List Item
  | 0, _, _ => []
  | n + 1, s, w =>
    match s.pull o w with
    | (.item item rest, w) => item :: pulls o n rest w
    | (.ended, _) => []

/-! The equations of pulls and visits, one for each form of a search that ends by itself. -/

theorem pull_emit (item : Item) (w : World σ) : (emit item s).pull o w = (.item item s, w) :=
  rfl

theorem pull_note (m : Mark) (w : World σ) : (note m s).pull o w = s.pull o (w.mark m) :=
  rfl

theorem pull_delay (rest : Unit → Search) (w : World σ) :
    (delay rest).pull o w = (rest ()).pull o w :=
  rfl

theorem pull_ask (q : Question) (next : Except Fault q.Value → Search) (w : World σ) :
    (ask q next).pull o w =
      (next (o.answer q w.state).1).pull o ⟨(o.answer q w.state).2, w.marks⟩ :=
  rfl

theorem visit_emit {α : Type} (f : α → Item → Visit α) (item : Item) (x : α) (w : World σ) :
    (emit item s).visit o f x w =
      match f x item with
      | .more x => s.visit o f x w
      | .enough x => (.enough x, w) :=
  rfl

theorem visit_note {α : Type} (f : α → Item → Visit α) (m : Mark) (x : α) (w : World σ) :
    (note m s).visit o f x w = s.visit o f x (w.mark m) :=
  rfl

theorem visit_delay {α : Type} (f : α → Item → Visit α) (rest : Unit → Search) (x : α)
    (w : World σ) : (delay rest).visit o f x w = (rest ()).visit o f x w :=
  rfl

theorem visit_ask {α : Type} (f : α → Item → Visit α) (q : Question)
    (next : Except Fault q.Value → Search) (x : α) (w : World σ) :
    (ask q next).visit o f x w =
      (next (o.answer q w.state).1).visit o f x ⟨(o.answer q w.state).2, w.marks⟩ :=
  rfl

/-- What comes of an item when branches are continued. -/
def continued (g : Branch → List Item) : Item → List Item
  | .ok b => g b
  | .error e => [.error e]

/-- A visitor's walk over a list of items. -/
def visitItems {α : Type} (f : α → Item → Visit α) : List Item → α → Visit α
  | [], x => .more x
  | item :: rest, x =>
    match f x item with
    | .more x => visitItems f rest x
    | .enough x => .enough x

namespace Delivers

/-! ### Pulls and visits -/

/-- A search that delivers nothing ends at the first pull. -/
theorem pull_nil (h : s.Delivers o K []) {w : World σ} (hw : K w.state) :
    ∃ w', s.pull o w = (.ended, w') ∧ K w'.state := by
  generalize hItems : ([] : List Item) = items at h
  induction h generalizing w with
  | done => exact ⟨w, rfl, hw⟩
  | emit _ => cases hItems
  | note _ ih =>
      rw [pull_note]
      exact ih hw hItems
  | delay _ ih =>
      rw [pull_delay]
      exact ih hw hItems
  | ask hReply _ ih =>
      rw [pull_ask, (hReply _ hw).1]
      exact ih (hReply _ hw).2 hItems

/-- Otherwise a pull delivers the first item, and the others are left. -/
theorem pull_cons {item : Item} (h : s.Delivers o K (item :: items)) {w : World σ}
    (hw : K w.state) :
    ∃ rest w', s.pull o w = (.item item rest, w') ∧ rest.Delivers o K items ∧
      K w'.state := by
  generalize hItems : item :: items = all at h
  induction h generalizing w with
  | done => cases hItems
  | @emit _ rest _ h =>
      obtain ⟨rfl, rfl⟩ := List.cons.inj hItems
      exact ⟨rest, w, pull_emit item w, h, hw⟩
  | note _ ih =>
      rw [pull_note]
      exact ih hw hItems
  | delay _ ih =>
      rw [pull_delay]
      exact ih hw hItems
  | ask hReply _ ih =>
      rw [pull_ask, (hReply _ hw).1]
      exact ih (hReply _ hw).2 hItems

/-- The first pulls deliver the first items. -/
theorem pulls_eq (h : s.Delivers o K items) {w : World σ} (hw : K w.state) (n : Nat) :
    s.pulls o n w = items.take n := by
  induction n generalizing s items w with
  | zero => rfl
  | succ n ih =>
      cases items with
      | nil =>
          obtain ⟨w', hPull, _⟩ := h.pull_nil hw
          rw [pulls, hPull, List.take_nil]
      | cons item items =>
          obtain ⟨rest, w', hPull, hRest, hw'⟩ := h.pull_cons hw
          rw [pulls, hPull, List.take_succ_cons, ← ih hRest hw']

/-- A visitor sees the items, up to the one at which it has seen enough. -/
theorem visit_eq {α : Type} (h : s.Delivers o K items) (f : α → Item → Visit α) (x : α)
    {w : World σ} (hw : K w.state) :
    ∃ w', s.visit o f x w = (visitItems f items x, w') ∧ K w'.state := by
  induction h generalizing x w with
  | done => exact ⟨w, rfl, hw⟩
  | @emit item rest items _ ih =>
      rw [visit_emit, visitItems]
      cases f x item with
      | more x => exact ih x hw
      | enough x => exact ⟨w, rfl, hw⟩
  | note _ ih =>
      rw [visit_note]
      exact ih x hw
  | delay _ ih =>
      rw [visit_delay]
      exact ih x hw
  | ask hReply _ ih =>
      rw [visit_ask, (hReply _ hw).1]
      exact ih x (hReply _ hw).2

/-- Settling leaves the items and the state as they are. -/
theorem settle (h : s.Delivers o K items) (w : World σ) :
    (s.settle w).1.Delivers o K items ∧ (s.settle w).2.state = w.state := by
  induction h generalizing w with
  | done => exact ⟨.done, rfl⟩
  | emit h => exact ⟨h.emit, rfl⟩
  | note _ ih => exact ih _
  | delay h => exact ⟨h.delay, rfl⟩
  | ask hReply h => exact ⟨.ask hReply h, rfl⟩

/-! ### Joining and continuing -/

theorem unit (b : Branch) : (Search.unit b).Delivers o K [.ok b] :=
  .emit .done

theorem failure (e : Error) : (Search.failure e).Delivers o K [.error e] :=
  .emit .done

theorem ofOption (b : Option Branch) : (Search.ofOption b).Delivers o K (b.toList.map .ok) := by
  cases b with
  | none => exact .done
  | some b => exact unit b

theorem append {more : List Item} (h : s.Delivers o K items) (ht : t.Delivers o K more) :
    (s.append t).Delivers o K (items ++ more) := by
  induction h with
  | done => exact ht
  | emit _ ih => exact ih.emit
  | note _ ih => exact ih.note
  | delay _ ih => exact ih.delay
  | ask hReply _ ih => exact .ask hReply ih

theorem each {α : Type} {f : α → Search} {g : α → List Item} {l : List α}
    (h : ∀ x ∈ l, (f x).Delivers o K (g x)) : (Search.each f l).Delivers o K (l.flatMap g) := by
  induction l with
  | nil => exact .done
  | cons x rest ih =>
      obtain ⟨hHead, hTail⟩ := List.forall_mem_cons.mp h
      exact (hHead.append (ih hTail)).delay

theorem read {α : Type} {r : Reading α} {f : Except Fault α → Search}
    (h : (f (r.outcome a)).Delivers o (o.Steady a) items) :
    (Search.read r f).Delivers o (o.Steady a) items := by
  induction r with
  | value x => exact h
  | fault e => exact h
  | ask q next ih => exact .ask (o.replies_of_steady a q) (ih (a q) h)

/-- Continuing every branch; failures stay where they are. -/
theorem bind_items {f : Branch → Search} {g : Branch → List Item} (h : s.Delivers o K items)
    (hf : ∀ b, .ok b ∈ items → (f b).Delivers o K (g b)) :
    (s.bind f).Delivers o K (items.flatMap (continued g)) := by
  induction h with
  | done => exact .done
  | @emit item rest items _ ih =>
      have hRest := ih fun b hb => hf b (List.mem_cons_of_mem _ hb)
      cases item with
      | ok b =>
          have hHead := hf b List.mem_cons_self
          exact (hHead.append hRest).delay
      | error e => exact hRest.emit
  | note _ ih => exact (ih hf).note
  | delay _ ih => exact (ih hf).delay
  | ask hReply _ ih => exact .ask hReply (ih hf)

/-- Continuing branches only, when there are no failures. -/
theorem bind {bs : List Branch} {f : Branch → Search} {g : Branch → List Branch}
    (h : s.Delivers o K (bs.map Except.ok)) (hf : ∀ b ∈ bs, (f b).Delivers o K ((g b).map .ok)) :
    (s.bind f).Delivers o K ((bs.flatMap g).map .ok) := by
  have hItems := h.bind_items (f := f) (g := fun b => (g b).map Except.ok) fun b hb => by
    obtain ⟨r, hr, hEq⟩ := List.mem_map.mp hb
    exact Except.ok.inj hEq ▸ hf r hr
  rw [List.flatMap_map] at hItems
  rw [List.map_flatMap]
  exact hItems

end Delivers

end Search

namespace Goal

variable {σ : Type} {o : Oracle σ} {K : σ → Prop} {items : List Item}

theorem visitItems_collect_all (q : Term) (items : List Item) (found : List Term) :
    (Search.visitItems (collect q) items (.ok ⟨found, none⟩)).value.map (·.answers) =
      (items.mapM id).map fun bs => (bs.map (·.reify q)).reverse ++ found := by
  induction items generalizing found with
  | nil => rfl
  | cons item rest ih =>
      cases item with
      | error e => rfl
      | ok b =>
          simp only [Search.visitItems, collect, ih, List.mapM_cons]
          cases rest.mapM id with
          | error e => rfl
          | ok bs => simp [Except.map, bind, Except.bind, pure, Except.pure]

theorem visitItems_collect_some (q : Term) (n : Nat) (items : List Item) (found : List Term) :
    (Search.visitItems (collect q) items (.ok ⟨found, some (n + 1)⟩)).value.map (·.answers) =
      ((items.take (n + 1)).mapM id).map fun bs => (bs.map (·.reify q)).reverse ++ found := by
  induction items generalizing n found with
  | nil => rfl
  | cons item rest ih =>
      cases item with
      | error e => rfl
      | ok b =>
          cases n with
          | zero => rfl
          | succ n =>
              have hMore : ¬ n + 1 + 1 ≤ 1 := by omega
              simp only [Search.visitItems, collect, hMore, ↓reduceIte, Nat.add_sub_cancel, ih,
                List.take_succ_cons, List.mapM_cons]
              cases (rest.take (n + 1)).mapM id with
              | error e => rfl
              | ok bs => simp [Except.map, bind, Except.bind, pure, Except.pure]

/-- Some items have a failure among them exactly if branches stand in front of a first one. -/
theorem mapM_id_eq_error_iff {e : Error} :
    items.mapM (id : Item → Item) = .error e ↔
      ∃ (bs : List Branch) (rest : List Item), items = bs.map Except.ok ++ .error e :: rest := by
  induction items with
  | nil => simp [pure, Except.pure]
  | cons item items ih =>
      cases item with
      | error e' =>
          constructor
          · intro h
            obtain rfl : e' = e := Except.error.inj h
            exact ⟨[], items, rfl⟩
          · rintro ⟨bs, rest, h⟩
            cases bs with
            | nil =>
                obtain ⟨h, _⟩ := List.cons.inj h
                rw [h]
                rfl
            | cons b bs => cases h
      | ok b =>
          have hHead : (Except.ok b :: items).mapM (id : Item → Item) = .error e ↔
              items.mapM (id : Item → Item) = .error e := by
            rw [List.mapM_cons]
            cases items.mapM (id : Item → Item) <;> simp [bind, Except.bind, pure, Except.pure]
          rw [hHead, ih]
          constructor
          · rintro ⟨bs, rest, rfl⟩
            exact ⟨b :: bs, rest, rfl⟩
          · rintro ⟨bs, rest, h⟩
            cases bs with
            | nil => cases h
            | cons b' bs => exact ⟨bs, rest, (List.cons.inj h).2⟩

/-- A run reifies the branches among the first items, up to its limit, and fails with the first
failure among them. -/
theorem run_eq {c : Context} {supply : Nat} {goal : Term → Goal} {w : World σ}
    (h : (goal (.var ⟨supply⟩) c (.start (supply + 1))).Delivers o K items) (hw : K w.state)
    (limit : Option Nat) :
    ∃ w', run o c limit supply goal w =
        (((limit.elim items items.take).mapM id).map (List.map (·.reify (.var ⟨supply⟩))), w') ∧
      K w'.state := by
  obtain ⟨hSettled, hState⟩ := h.settle w
  rw [← hState] at hw
  have hReversed {r : Except Error Collected} {bs : Except Error (List Branch)}
      (h : r.map (·.answers) = bs.map fun bs => (bs.map (·.reify (.var ⟨supply⟩))).reverse ++ []) :
      (r.map fun collected => collected.answers.reverse) =
        bs.map (List.map (·.reify (.var ⟨supply⟩))) := by
    cases r <;> cases bs <;> simp_all [Except.map]
  have hVisit := fun sofar => hSettled.visit_eq (collect (.var ⟨supply⟩)) sofar hw
  cases limit with
  | none =>
      obtain ⟨w', hVisit, hw'⟩ := hVisit (.ok ⟨[], none⟩)
      simp only [run, solve, reduceCtorEq, ↓reduceIte, hVisit]
      exact ⟨w', Prod.ext (hReversed (visitItems_collect_all (.var ⟨supply⟩) items [])) rfl, hw'⟩
  | some n =>
      cases n with
      | zero => exact ⟨_, rfl, hw⟩
      | succ n =>
          obtain ⟨w', hVisit, hw'⟩ := hVisit (.ok ⟨[], some (n + 1)⟩)
          simp only [run, solve, Option.some.injEq, Nat.add_one_ne_zero, ↓reduceIte, hVisit]
          exact ⟨w', Prod.ext (hReversed (visitItems_collect_some (.var ⟨supply⟩) n items [])) rfl,
            hw'⟩

/-- A run fails with an error exactly if the error comes before the answers are as many as wanted,
and nothing but answers in front of it. -/
theorem run_eq_error_iff {c : Context} {supply : Nat} {goal : Term → Goal} {w : World σ}
    (h : (goal (.var ⟨supply⟩) c (.start (supply + 1))).Delivers o K items) (hw : K w.state)
    (limit : Option Nat) (e : Error) :
    (run o c limit supply goal w).1 = .error e ↔
      ∃ (bs : List Branch) (rest : List Item), items = bs.map Except.ok ++ .error e :: rest ∧
        ∀ n ∈ limit, bs.length < n := by
  obtain ⟨w', hRun, _⟩ := run_eq h hw limit
  have hMap {r : Except Error (List Branch)} :
      r.map (List.map (·.reify (.var ⟨supply⟩))) = .error e ↔ r = .error e := by
    cases r <;> simp [Except.map]
  rw [hRun, hMap, mapM_id_eq_error_iff]
  cases limit with
  | none => simp
  | some n =>
      simp only [Option.elim_some, Option.mem_some_iff, forall_eq']
      constructor
      · rintro ⟨bs, rest, hTake⟩
        refine ⟨bs, rest ++ items.drop n, (List.take_append_drop n items).symm.trans ?_, ?_⟩
        · rw [hTake, List.append_assoc, List.cons_append]
        · have hLength := congrArg List.length hTake
          simp only [List.length_take, List.length_append, List.length_map,
            List.length_cons] at hLength
          omega
      · rintro ⟨bs, rest, rfl, hLt⟩
        refine ⟨bs, rest.take (n - bs.length - 1), ?_⟩
        obtain ⟨k, hk⟩ : ∃ k, n - bs.length = k + 1 := ⟨n - bs.length - 1, by omega⟩
        rw [List.take_append, List.length_map, hk, List.take_succ_cons, Nat.add_sub_cancel,
          List.take_of_length_le (by rw [List.length_map]; omega)]

/-- Without a limit a run answers with all branches, if all items are branches. -/
theorem run_all {c : Context} {supply : Nat} {goal : Term → Goal} {w : World σ}
    {bs : List Branch}
    (h : (goal (.var ⟨supply⟩) c (.start (supply + 1))).Delivers o K (bs.map Except.ok))
    (hw : K w.state) :
    ∃ w', run o c none supply goal w = (.ok (bs.map (·.reify (.var ⟨supply⟩))), w') ∧
      K w'.state := by
  have hBranches : (bs.map Except.ok).mapM (id : Item → Item) = .ok bs := by
    have hPure : bs.mapM (fun b => (pure b : Item)) = pure (bs.map fun b => b) := List.mapM_pure
    rw [List.map_id'] at hPure
    rw [List.mapM_map]
    exact hPure
  obtain ⟨w', hRun, hw'⟩ := run_eq h hw none
  refine ⟨w', ?_, hw'⟩
  rw [hRun, Option.elim_none, hBranches]
  rfl

end Goal

end PageLogic
