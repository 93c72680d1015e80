import PageLogic.DevTools.Live
import PageLogic.Proofs.Page.Refusal
import PageLogic.Proofs.Text.Spelling
/-!
Handles as names. Handles are compared as texts, while the elements that they name are read from the
numbers in them. Numbers are read in more spellings than they are written in: of all texts that name
one element, the plain one is the handle that was given out.
-/
namespace PageLogic

namespace Page

variable {p : Page} {e : Handle} {generation index : Nat}

/-- The numbers in the text of the handle are written bare, as pages write them. -/
def isPlain (e : Handle) : Bool :=
  (numerals e).all fun (generation, index) => Text.isBare generation && Text.isBare index

/-- A text that is read as a handle is plain if, and only if, it is the handle that a page gives out
for the place. -/
theorem isPlain_iff_eq_handleOf (h : parseHandle e = some (generation, index)) :
    isPlain e = true ↔ e = handleOf generation index := by
  obtain ⟨a, b, hNumerals, ha, hb⟩ := parseHandle_eq_some_iff.mp h
  have hPlain : isPlain e = true ↔ a = Nat.toDigits 10 generation ∧ b = Nat.toDigits 10 index := by
    rw [isPlain, hNumerals, Option.all_some, Bool.and_eq_true, Text.isBare_iff_eq_toDigits ha,
      Text.isBare_iff_eq_toDigits hb]
  rw [hPlain]
  constructor
  · rintro ⟨rfl, rfl⟩
    have hList : e.id.toList = (handleOf generation index).id.toList := by
      rw [toList_of_numerals hNumerals, toList_handleOf]
    exact congrArg Handle.mk (String.toList_inj.mp hList)
  · rintro rfl
    rw [numerals_handleOf] at hNumerals
    cases hNumerals
    exact ⟨rfl, rfl⟩

/-- Of the texts that a page takes for its elements, those that it gave out are the plain ones. -/
theorem Accepts.mem_handles_iff (h : p.Accepts e) : e ∈ p.handles ↔ isPlain e = true := by
  obtain ⟨index, position, hNames⟩ := accepts_iff.mp h
  rw [isPlain_iff_eq_handleOf hNames.read]
  constructor
  · intro hMem
    obtain ⟨a, _, rfl⟩ := List.mem_map.mp hMem
    obtain ⟨_, rfl⟩ := eq_of_parseHandle_handleOf hNames.read
    rfl
  · rintro rfl
    exact mem_handles.mpr ⟨⟨position, hNames.found⟩, hNames.attached⟩

/-- A page takes what it gave out, as long as the numbers fit. -/
theorem accepts_of_mem_handles (hAddressable : p.Addressable) (h : e ∈ p.handles) :
    p.Accepts e := by
  obtain ⟨⟨index, position⟩, hMem, rfl⟩ := List.mem_map.mp h
  obtain ⟨hFound, _, hAttached⟩ := mem_attached.mp hMem
  have hIndex : index < Word.limit :=
    (List.getElem?_eq_some_iff.mp hFound).1.trans_le hAddressable.length_le
  have hRead := (parseHandle_handleOf p.generation index).trans
    (if_pos ⟨hAddressable.generation_lt, hIndex⟩)
  exact Names.accepts ⟨hRead, hAttached, hFound⟩

end Page

namespace DevTools

/-- A text that holds a node's lasting number is bare if, and only if, it is the handle that is given
out for the number. -/
theorem isBare_iff_eq_handle {e : Handle} {n : Int} (h : backendId e = .ok n) :
    Text.isBare e.id.toList = true ↔ e = handle n := by
  have hRead : Text.intWithin? Word.signedLimit e.id.toList = some n := by
    unfold backendId at h
    split at h
    · next hSome =>
        cases h
        exact hSome
    · cases h
  rw [Text.isBare_iff_eq_toString hRead]
  constructor
  · intro hList
    exact congrArg Handle.mk (String.toList_inj.mp hList)
  · rintro rfl
    rfl

end DevTools

open Page

/-- Handles identify elements as long as their numbers are written bare. Of texts that a page reads as the
place that a plain one names, the plain ones are equal to it; of texts that a page takes for its elements,
it gave out the plain ones, and it takes all that it gave out. So it is with a running page: of texts that
hold the lasting number of a bare one, the bare ones are equal to it, and they are those that are given
out. -/
theorem handles_identify_nodes (p : Page) (e₁ e₂ : Handle) :
    (∀ place, parseHandle e₁ = some place → parseHandle e₂ = some place → isPlain e₁ = true →
      (e₁ = e₂ ↔ isPlain e₂ = true)) ∧
    (p.Accepts e₁ → (e₁ ∈ p.handles ↔ isPlain e₁ = true)) ∧
    (p.Addressable → e₁ ∈ p.handles → p.Accepts e₁) ∧
    (∀ n, DevTools.backendId e₁ = .ok n → DevTools.backendId e₂ = .ok n →
      Text.isBare e₁.id.toList = true → (e₁ = e₂ ↔ Text.isBare e₂.id.toList = true)) ∧
    ∀ n, DevTools.backendId e₁ = .ok n →
      (e₁ = DevTools.handle n ↔ Text.isBare e₁.id.toList = true) := by
  refine ⟨fun place h₁ h₂ hPlain₁ => ?_, Accepts.mem_handles_iff, accepts_of_mem_handles,
    fun n h₁ h₂ hBare₁ => ?_, fun n h => (DevTools.isBare_iff_eq_handle h).symm⟩
  · rw [isPlain_iff_eq_handleOf h₂, (isPlain_iff_eq_handleOf h₁).mp hPlain₁]
    exact eq_comm
  · rw [DevTools.isBare_iff_eq_handle h₂, (DevTools.isBare_iff_eq_handle h₁).mp hBare₁]
    exact eq_comm

/-- The text with a plus sign names the list, though it is not the handle that was given out for it; and
a running page reads a number with a plus sign too. -/
theorem plusSign_is_accepted :
    parseHandle ⟨"node-0-+3"⟩ = some (0, 3) ∧ parseHandle ⟨"node-0-3"⟩ = some (0, 3) ∧
      twoItems.Accepts ⟨"node-0-+3"⟩ ∧ ⟨"node-0-+3"⟩ ∉ twoItems.handles ∧
      DevTools.backendId ⟨"+7"⟩ = .ok 7 ∧ DevTools.backendId ⟨"7"⟩ = .ok 7 ∧
      (⟨"node-0-+3"⟩ : Handle) ≠ ⟨"node-0-3"⟩ ∧ (⟨"+7"⟩ : Handle) ≠ ⟨"7"⟩ := by
  obtain ⟨list, hList⟩ := exists_position_twoItems 3 (by decide)
  have hRead : parseHandle ⟨"node-0-+3"⟩ = some (twoItems.generation, 3) := by decide +kernel
  have hAccepts : twoItems.Accepts ⟨"node-0-+3"⟩ := Names.accepts ⟨hRead, nofun, hList⟩
  refine ⟨hRead, by decide +kernel, hAccepts, fun hMem => ?_, rfl, rfl, by decide, by decide⟩
  have hPlain := hAccepts.mem_handles_iff.mp hMem
  exact absurd hPlain (by decide +kernel)

/-- The plain text that names the list is the handle that was given out for it. -/
theorem handles_identify_list :
    parseHandle ⟨"node-0-3"⟩ = some (0, 3) ∧ twoItems.Accepts ⟨"node-0-3"⟩ ∧
      (⟨"node-0-3"⟩ : Handle) ∈ twoItems.handles ∧ (⟨"node-0-3"⟩ : Handle) = twoItems.handle 3 ∧
      (⟨"7"⟩ : Handle) = DevTools.handle 7 := by
  obtain ⟨list, hList⟩ := exists_position_twoItems 3 (by decide)
  have hRead : parseHandle ⟨"node-0-3"⟩ = some (0, 3) := by decide +kernel
  have hPlain : isPlain ⟨"node-0-3"⟩ = true := by decide +kernel
  have hAccepts : twoItems.Accepts ⟨"node-0-3"⟩ := Names.accepts ⟨hRead, nofun, hList⟩
  obtain ⟨hPlace, hGiven, _⟩ := handles_identify_nodes twoItems ⟨"node-0-3"⟩ (twoItems.handle 3)
  obtain ⟨_, _, _, _, hNode⟩ := handles_identify_nodes twoItems ⟨"7"⟩ ⟨"7"⟩
  refine ⟨hRead, hAccepts, (hGiven hAccepts).mpr hPlain, ?_, (hNode 7 rfl).mpr rfl⟩
  exact (hPlace (0, 3) hRead (by decide +kernel) hPlain).mpr (by decide +kernel)

end PageLogic
