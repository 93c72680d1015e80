import PageLogic.Proofs.Substitution.Reachable
/-!
Most general unifiers. On a substitution that unification has reached, unifying two terms finds
exactly the solutions of the equation between them, or shows that there is none. A run that follows
bindings step by step comes to the same end, by `Acyclic.unify?_ends`.
-/
namespace PageLogic

/-- No value has variables in it. Placeholders may stand in values: for unification they are
constants. -/
def Valuation.VariableFree (v : Valuation) : Prop :=
  ∀ x, (v x).vars = []

/-- Terms that no variable heads can stand for the same only if they are of the same make: records
with the same names in the same order, lists of the same length, or the same constant. -/
def Term.SameMake : Term → Term → Prop
  | .record fs, .record gs => fs.map (·.1) = gs.map (·.1)
  | .list ts, .list us => ts.length = us.length
  | t, u => t = u

theorem Term.sameMake_of_replace_eq {t u : Term} {v : Valuation} (ht : t.isVar = false)
    (hu : u.isVar = false) (h : t.replace v = u.replace v) : t.SameMake u := by
  cases t with
  | var x => cases ht
  | record fs =>
      cases u with
      | record gs =>
          simp only [replace_record, record.injEq] at h
          have hNames := congrArg (List.map Prod.fst) h
          simpa only [List.map_map, Function.comp_def, SameMake] using hNames
      | var x => cases hu
      | _ => simp [replace] at h
  | list ts =>
      cases u with
      | list us =>
          simp only [replace_list, list.injEq] at h
          have hLength := congrArg List.length h
          simpa only [List.length_map, SameMake] using hLength
      | var x => cases hu
      | _ => simp [replace] at h
  | _ =>
      cases u with
      | var x => cases hu
      | record gs => simp [replace] at h
      | list us => simp [replace] at h
      | _ => exact h

namespace Substitution

variable {s r : Substitution} {t u : Term}

/-- The valuation makes both sides of every binding equal. -/
def SatisfiedBy (s : Substitution) (v : Valuation) : Prop :=
  ∀ p ∈ s.bindings, v p.1 = p.2.replace v

/-- Where no variable is bound twice, every binding counts. -/
theorem BindsOnce.satisfiedBy_iff (h : s.BindsOnce) (v : Valuation) :
    s.SatisfiedBy v ↔ s.Admits v := by
  constructor
  · exact fun hv x t hx => hv _ (mem_bindings_of_lookup hx)
  · rintro hv ⟨x, t⟩ hp
    obtain ⟨before, after, hSplit⟩ := List.append_of_mem hp
    unfold BindsOnce at h
    rw [hSplit, List.map_append, List.map_cons] at h
    have hApart := (List.nodup_middle.mp h).notMem
    have hBefore : ∀ p ∈ before, (x != p.1) = true := by
      intro p hMem
      rw [bne_iff_ne]
      rintro rfl
      exact hApart (List.mem_append_left _ (List.mem_map.mpr ⟨p, hMem, rfl⟩))
    apply hv
    exact List.lookup_eq_some_iff.mpr ⟨before, after, hSplit, hBefore⟩

theorem Reachable.satisfiedBy_iff (h : s.Reachable) (v : Valuation) :
    s.SatisfiedBy v ↔ s.Admits v :=
  h.bindsOnce.satisfiedBy_iff v

/-- Acyclic substitutions have solutions without variables. -/
theorem Acyclic.exists_admits (h : s.Acyclic) : ∃ v : Valuation, v.VariableFree ∧ s.Admits v := by
  refine ⟨_, fun x => ?_, h.admits_resolve fun _ => .bool true⟩
  rw [Term.vars_replace, List.flatMap_eq_nil_iff]
  exact fun _ _ => rfl

/-- After unification both terms stand for the same, down to every part. If neither stood for a
variable before, they were of the same make. -/
theorem Acyclic.unified_alike (hs : s.Acyclic) (h : s.unify t u = some r) :
    r.resolve t = r.resolve u ∧
      ((s.walk t).isVar = false → (s.walk u).isVar = false →
        (s.walk t).SameMake (s.walk u)) := by
  obtain ⟨hGrows, hSolves⟩ := hs.unify_grows h
  have hAdmits : r.Admits fun x => r.resolve (.var x) := by
    simpa using (hGrows.acyclic hs).admits_resolve Term.var
  obtain ⟨hPrior, hEq⟩ := (hSolves _).mp hAdmits
  constructor
  · rw [resolve_eq_replace, resolve_eq_replace r u, hEq]
  · intro ht hu
    rw [← hPrior.replace_walk t, ← hPrior.replace_walk u] at hEq
    exact Term.sameMake_of_replace_eq ht hu hEq

/-- Unification finds a most general unifier. The valuations that satisfy it are those that satisfy
the substitution and give both terms the same value, and there is no unifier exactly if there are no
such valuations. Terms that unify agree in make wherever neither is a variable. -/
theorem unify_most_general (hs : s.Reachable) (t u : Term) :
    (∀ r, s.unify t u = some r →
      (∀ v : Valuation, v.VariableFree →
        (r.SatisfiedBy v ↔ s.SatisfiedBy v ∧ t.replace v = u.replace v)) ∧
      r.resolve t = r.resolve u ∧
      ((s.walk t).isVar = false → (s.walk u).isVar = false →
        (s.walk t).SameMake (s.walk u))) ∧
    (s.unify t u = none ↔
      ∀ v : Valuation, v.VariableFree → s.SatisfiedBy v → t.replace v ≠ u.replace v) := by
  have hAcyclic := hs.acyclic
  constructor
  · intro r h
    refine ⟨fun v _ => ?_, hAcyclic.unified_alike h⟩
    rw [(hs.unify h).satisfiedBy_iff, hs.satisfiedBy_iff]
    exact (hAcyclic.unify_grows h).2 v
  · constructor
    · intro h v _ hv
      exact hAcyclic.unify_eq_none h ((hs.satisfiedBy_iff v).mp hv)
    · intro hNone
      rw [Option.eq_none_iff_forall_ne_some]
      intro r h
      obtain ⟨v, hFree, hv⟩ := (hs.unify h).acyclic.exists_admits
      obtain ⟨hPrior, hEq⟩ := ((hAcyclic.unify_grows h).2 v).mp hv
      exact hNone v hFree ((hs.satisfiedBy_iff v).mpr hPrior) hEq

/-- A variable that is bound to a text unifies with no number. An unbound one does, and then every
solution gives it the number. -/
theorem unify_most_general_text :
    let s := empty.push ⟨0⟩ (.str "corn")
    s.Reachable ∧ s.unify (.var ⟨0⟩) (.int 5) = none ∧
      ∃ r, s.unify (.list [.var ⟨0⟩, .var ⟨1⟩]) (.list [.str "corn", .int 5]) = some r ∧
        ∀ v : Valuation, v.VariableFree → r.SatisfiedBy v → v ⟨1⟩ = .int 5 := by
  intro s
  have hs : s.Reachable :=
    Reachable.empty.unify (unify_atom (walk_of_unbound (lookup_empty ⟨0⟩)) rfl)
  refine ⟨hs, ?_, ?_⟩
  · apply (unify_most_general hs _ _).2.mpr
    intro v _ hv hEq
    have hText : v ⟨0⟩ = .str "corn" := hv (⟨0⟩, .str "corn") List.mem_cons_self
    have hNumber : v ⟨0⟩ = .int 5 := hEq
    rw [hText] at hNumber
    cases hNumber
  · obtain ⟨hSome, hNone⟩ :=
      unify_most_general hs (.list [.var ⟨0⟩, .var ⟨1⟩]) (.list [.str "corn", .int 5])
    cases hUnify : s.unify (.list [.var ⟨0⟩, .var ⟨1⟩]) (.list [.str "corn", .int 5]) with
    | none =>
        let v : Valuation := fun x => if x = ⟨0⟩ then .str "corn" else .int 5
        have hFree : v.VariableFree := fun x => by
          simp only [v]
          split <;> rfl
        have hv : s.SatisfiedBy v := by
          intro p hp
          obtain rfl : p = (⟨0⟩, .str "corn") := by simpa [s, push, empty] using hp
          rfl
        exact absurd rfl (hNone.mp hUnify v hFree hv)
    | some r =>
        refine ⟨r, rfl, fun v hFree hr => ?_⟩
        have hEq : Term.list [v ⟨0⟩, v ⟨1⟩] = .list [.str "corn", .int 5] :=
          (((hSome r hUnify).1 v hFree).mp hr).2
        simp only [Term.list.injEq, List.cons.injEq] at hEq
        exact hEq.2.1

end Substitution

end PageLogic
