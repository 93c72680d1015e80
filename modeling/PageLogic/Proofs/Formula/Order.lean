import PageLogic.Proofs.Page.Facts
import Mathlib.Data.List.Perm.Basic
/-!
The order of conjuncts. Reordering the conjuncts of a formula, however deep they stand, and exchanging
the sides of its equations, moves relations between their ways of being applied; on a page whose
relations are tables the answers stay the same, and only their order can change.
-/
namespace PageLogic

namespace Branch

variable {As As' Bs Bs' : List Condition}

theorem both_perm (hAs : As.Perm As') (hBs : Bs.Perm Bs') : (both As Bs).Perm (both As' Bs') :=
  hAs.flatMap fun _ _ => hBs.map _

/-- The conditions of a conjunction are the same in the other order, except for their own order. -/
theorem both_comm (As Bs : List Condition) : (both As Bs).Perm (both Bs As) := by
  induction As with
  | nil => simp [both]
  | cons A rest ih =>
      have hSplit : both Bs (A :: rest) =
          Bs.flatMap fun B => [fun v => B v ∧ A v] ++ rest.map fun C v => B v ∧ C v := rfl
      have hHead : (Bs.map fun B v => A v ∧ B v) = Bs.flatMap fun B => [fun v => B v ∧ A v] := by
        simp only [List.map_eq_flatMap, and_comm]
      rw [hSplit]
      refine List.Perm.trans ?_ (List.flatMap_append_perm Bs _ _)
      rw [← hHead]
      exact ih.append_left _

end Branch

namespace Goal

theorem bothAll_perm {Ass Bss : List (List Condition)} (h : Ass.Perm Bss) :
    (bothAll Ass).Perm (bothAll Bss) := by
  induction h with
  | nil => exact .refl _
  | cons As _ ih => exact Branch.both_perm (.refl As) ih
  | swap As Bs rest =>
      rw [bothAll, bothAll, bothAll, bothAll, ← Branch.both_assoc, ← Branch.both_assoc]
      exact Branch.both_perm (Branch.both_comm Bs As) (.refl _)
  | trans _ _ ih ih' => exact ih.trans ih'

end Goal

namespace Formula

/-- Formulas that differ in the order of conjuncts and in the sides of equations, anywhere in them. -/
inductive Reordered : Formula → Formula → Prop where
  | refl (g : Formula) : Reordered g g
  | symm {g h : Formula} (hgh : Reordered g h) : Reordered h g
  | trans {f g h : Formula} (hfg : Reordered f g) (hgh : Reordered g h) : Reordered f h
  | eq_swap (t u : Term) : Reordered (.eq t u) (.eq u t)
  | conj_swap (g h : Formula) : Reordered (.conj g h) (.conj h g)
  | conj_regroup (f g h : Formula) : Reordered (.conj (.conj f g) h) (.conj f (.conj g h))
  | conjAll_permute {gs hs : List Formula} (h : gs.Perm hs) : Reordered (.conjAll gs) (.conjAll hs)
  | conj {g g' h h' : Formula} (hg : Reordered g g') (hh : Reordered h h') :
      Reordered (.conj g h) (.conj g' h')
  | disj {g g' h h' : Formula} (hg : Reordered g g') (hh : Reordered h h') :
      Reordered (.disj g h) (.disj g' h')
  | conjAll {front behind : List Formula} {g g' : Formula} (hg : Reordered g g') :
      Reordered (.conjAll (front ++ g :: behind)) (.conjAll (front ++ g' :: behind))
  | disjAll {front behind : List Formula} {g g' : Formula} (hg : Reordered g g') :
      Reordered (.disjAll (front ++ g :: behind)) (.disjAll (front ++ g' :: behind))
  | fresh {x : Var} {g g' : Formula} (hg : Reordered g g') : Reordered (.fresh x g) (.fresh x g')
  | fresh2 {x y : Var} {g g' : Formula} (hg : Reordered g g') :
      Reordered (.fresh2 x y g) (.fresh2 x y g')

variable {F : Facts} {L : Fragment} {g h : Formula}

/-- A reordered formula has the same conditions, in some order. -/
theorem Reordered.conditions_perm (hgh : g.Reordered h) :
    (g.conditions F).Perm (h.conditions F) := by
  induction hgh with
  | refl => exact .refl _
  | symm _ ih => exact ih.symm
  | trans _ _ ih ih' => exact ih.trans ih'
  | eq_swap t u => simp only [conditions, eq_comm, List.Perm.refl]
  | conj_swap g h => exact Branch.both_comm _ _
  | conj_regroup f g h => rw [conditions, conditions, Branch.both_assoc, conditions, conditions]
  | conjAll_permute h =>
      rw [conditions, conditions, conditionsOf_eq, conditionsOf_eq]
      exact Goal.bothAll_perm (h.map _)
  | conj _ _ ihg ihh => exact Branch.both_perm ihg ihh
  | disj _ _ ihg ihh => exact ihg.append ihh
  | @conjAll front behind g g' _ ih =>
      rw [conditions, conditions, conditionsOf_eq, conditionsOf_eq]
      simp only [List.map_append, List.map_cons]
      induction front with
      | nil => exact Branch.both_perm ih (.refl _)
      | cons f front ihFront => exact Branch.both_perm (.refl _) ihFront
  | @disjAll front behind g g' _ ih =>
      rw [conditions, conditions, conditionsOf_eq, conditionsOf_eq]
      simp only [List.map_append, List.map_cons, List.flatten_append, List.flatten_cons]
      exact (ih.append_right _).append_left _
  | fresh _ ih => exact ih.map _
  | fresh2 _ ih => exact ih.map _

/-- Reordering stays in the fragment and brings in no names. -/
theorem Reordered.plain_iff (hgh : g.Reordered h) (S : Var → Prop) : g.Plain L S ↔ h.Plain L S := by
  induction hgh generalizing S with
  | refl => exact Iff.rfl
  | symm _ ih => exact (ih S).symm
  | trans _ _ ih ih' => exact (ih S).trans (ih' S)
  | eq_swap t u => rw [plain_eq_iff, plain_eq_iff, and_comm]
  | conj_swap g h => rw [plain_conj_iff, plain_conj_iff, and_comm]
  | conj_regroup f g h =>
      rw [plain_conj_iff, plain_conj_iff, plain_conj_iff, plain_conj_iff, and_assoc]
  | conjAll_permute h =>
      rw [plain_conjAll_iff, plain_conjAll_iff]
      exact forall_congr' fun g => by rw [h.mem_iff]
  | conj _ _ ihg ihh => rw [plain_conj_iff, plain_conj_iff, ihg, ihh]
  | disj _ _ ihg ihh => rw [plain_disj_iff, plain_disj_iff, ihg, ihh]
  | conjAll _ ih =>
      simp only [plain_conjAll_iff, List.forall_mem_append, List.forall_mem_cons, ih]
  | disjAll _ ih =>
      simp only [plain_disjAll_iff, List.forall_mem_append, List.forall_mem_cons, ih]
  | fresh _ ih => rw [plain_fresh_iff, plain_fresh_iff, ih]
  | fresh2 _ ih => rw [plain_fresh2_iff, plain_fresh2_iff, ih]

/-- On a page without unrecognized faults, under the root scope that admits everything, reordering a
formula leaves its answers the same, each as often as before. -/
theorem Reordered.answers_perm {c : Context} {w : World Page} (hRoot : c.scope.root = "*")
    (hElements : w.state.ElementsExpected) (hPage : w.state.pageFault ≠ some .unexpected)
    {supply : Nat} {x : Var} (hg : g.Plain (.onPage w.state) (Asked supply x))
    (hgh : g.Reordered h) :
    ∃ found found', g.answers Page.oracle c supply x w = .ok found ∧
      h.answers Page.oracle c supply x w = .ok found' ∧ found.Perm found' := by
  have hFacts := Page.facts_hold (L := .onPage w.state) hRoot hElements rfl (fun _ hr => hr)
    fun _ => hPage
  obtain ⟨bs, hAnswers, hCovered⟩ := hg.answers_eq hFacts w.state.steady
  obtain ⟨bs', hAnswers', hCovered'⟩ :=
    ((hgh.plain_iff _).mp hg).answers_eq hFacts w.state.steady
  exact ⟨_, _, hAnswers, hAnswers', hCovered.reify_perm hCovered' (hgh.conditions_perm.map _)
    (Term.built_var.mpr (Nat.lt_succ_self supply))⟩

/-- What lies beneath the outermost element of a page, the element being named before it is used. -/
def beneathOutermost (p : Page) : Formula :=
  .fresh ⟨1⟩ (.conj (.eq (.var ⟨1⟩) (.element (p.handle 0)))
    (.binary .childOf (.var ⟨0⟩) (.var ⟨1⟩)))

/-- The element may as well be named after it is used. -/
theorem beneathOutermost_answers_perm :
    let p := Page.load "https://example.org/" "<ul><li>one<li>two</ul>"
    Page.ElementsExpected p ∧ p.pageFault ≠ some .unexpected ∧
      (beneathOutermost p).Plain (.onPage p) (Asked 0 ⟨0⟩) ∧
      ∃ found found',
        (beneathOutermost p).answers Page.oracle ⟨.everything⟩ 0 ⟨0⟩ (.of p) = .ok found ∧
        (Formula.fresh ⟨1⟩ (.conj (.binary .childOf (.var ⟨0⟩) (.var ⟨1⟩))
          (.eq (.element (p.handle 0)) (.var ⟨1⟩)))).answers Page.oracle ⟨.everything⟩ 0 ⟨0⟩
            (.of p) = .ok found' ∧
        found.Perm found' := by
  intro p
  have hElements : Page.ElementsExpected p := fun index h => by cases h
  have hPage : p.pageFault ≠ some .unexpected := by rintro ⟨⟩
  have hPlain : (beneathOutermost p).Plain (.onPage p) (Asked 0 ⟨0⟩) :=
    .fresh (.conj (.eq (by simp) (Term.built_element (p.issued_handle 0) _))
      (.binary trivial (by simp [Asked]) (by simp)))
  exact ⟨hElements, hPage, hPlain, Reordered.answers_perm rfl hElements hPage hPlain
    (.fresh (.trans (.conj_swap _ _) (.conj (.refl _) (.eq_swap _ _))))⟩

end Formula

end PageLogic
