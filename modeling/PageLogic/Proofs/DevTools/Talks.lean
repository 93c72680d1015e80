import PageLogic.DevTools.Talk
/-!
Talks that come to a value. `Talk.Yields` says from which states of a link a talk ends with a value of
which kind, and in which states it leaves the link; it follows the talk from command to command.
-/
namespace PageLogic.DevTools

variable {σ α β : Type} {link : Link σ} {K K' K'' : σ → Prop}

/-- In the states `K` a command is answered with a result of a certain kind, and the link is in one of the
states `K'` afterwards. -/
def Link.Replies (link : Link σ) (K : σ → Prop) (method : String) (params : Json) (kind : Json → Prop)
    (K' : σ → Prop) : Prop :=
  ∀ s, K s → ∃ r s', kind r ∧ K' s' ∧ link.exchange method params s = (.ok r, s')

namespace Talk

theorem run_andThen (link : Link σ) (t : Talk α) (f : α → Talk β) (s : σ) :
    (t.andThen f).run link s =
      match t.run link s with
      | (.ok a, s) => (f a).run link s
      | (.error e, s) => (.error e, s) := by
  induction t generalizing s with
  | value a => rfl
  | failure e => rfl
  | send method params next ih => exact ih _ _

theorem run_andThen_of_error {t : Talk α} {s s' : σ} {e : Failure} (h : t.run link s = (.error e, s'))
    (f : α → Talk β) : (t.andThen f).run link s = (.error e, s') := by
  rw [run_andThen, h]

/-- From the states `K` the talk ends with a value of a certain kind, in one of the states `K'`. -/
def Yields (link : Link σ) (K : σ → Prop) (t : Talk α) (kind : α → Prop) (K' : σ → Prop) : Prop :=
  ∀ s, K s → ∃ a s', kind a ∧ K' s' ∧ t.run link s = (.ok a, s')

variable {t : Talk α} {kind : α → Prop} {kind' : β → Prop}

theorem Yields.of_imp {K₀ : σ → Prop} (h : Yields link K t kind K') (hK : ∀ s, K₀ s → K s) :
    Yields link K₀ t kind K' :=
  fun s hs => h s (hK s hs)

theorem yields_value {a : α} (h : kind a) : Yields link K (.value a) kind K :=
  fun s hs => ⟨a, s, h, hs, rfl⟩

theorem yields_required {missing : String} {value : Option α} {a : α} (hValue : value = some a)
    (h : kind a) : Yields link K (required missing value) kind K := by
  subst hValue
  exact yields_value h

theorem yields_ofExcept {result : Except Failure α} {a : α} (hResult : result = .ok a) (h : kind a) :
    Yields link K (ofExcept result) kind K := by
  subst hResult
  exact yields_value h

theorem Yields.andThen {f : α → Talk β} (h : Yields link K t kind K')
    (hf : ∀ a, kind a → Yields link K' (f a) kind' K'') : Yields link K (t.andThen f) kind' K'' := by
  intro s hs
  obtain ⟨a, s₁, ha, hs₁, hRun⟩ := h s hs
  obtain ⟨b, s₂, hb, hs₂, hRest⟩ := hf a ha s₁ hs₁
  exact ⟨b, s₂, hb, hs₂, by rw [run_andThen, hRun, ← hRest]⟩

theorem Yields.map {f : α → β} (h : Yields link K t kind K') (hf : ∀ a, kind a → kind' (f a)) :
    Yields link K (t.map f) kind' K' :=
  h.andThen fun a ha => yields_value (hf a ha)

theorem yields_command {method : String} {params : Json} {kind : Json → Prop}
    (h : link.Replies K method params kind K') : Yields link K (command method params) kind K' := by
  intro s hs
  obtain ⟨r, s', hr, hs', hExchange⟩ := h s hs
  exact ⟨r, s', hr, hs', by simp [command, run, hExchange, ofExcept]⟩

end Talk

end PageLogic.DevTools
