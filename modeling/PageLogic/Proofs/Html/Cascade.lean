import PageLogic.Page
import PageLogic.Proofs.Page.Handle
import PageLogic.Proofs.Text.Blank
import Mathlib
/-!
What a style attribute means, and what a page makes of it. Of several declarations of one property, style
sheets apply the last, and those that are marked as important before all others; the mark is no part of
the value. A page takes the first one, with its mark, so that it is right just where the first one is
unmarked and says what the applied one says.
-/
namespace PageLogic.Html.Style

open Text

variable {property : String} {cs : List Char}

/-! ### Declarations as they are written -/

/-- The mark of a declaration that is important, with the blanks in it. -/
def isMark (text : List Char) : Bool :=
  match text.dropWhile isSpace with
  | '!' :: rest => (rest.dropWhile isSpace).map Char.toLower == "important".toList
  | _ => false

/-- A name of a property, without blanks. -/
def isName (text : List Char) : Bool :=
  !text.isEmpty && text.all fun c => !isBlank c && c != ':' && c != ';'

/-- A value, without blanks at the ends. -/
def isValue (text : List Char) : Bool :=
  !text.isEmpty && !text.head?.any isBlank && !text.getLast?.any isBlank &&
    text.all fun c => c != ';' && c != '!'

/-- A declaration in a style attribute without quotes, comments and parentheses. -/
structure Declaration where
  property : List Char
  value : List Char
  /-- What stands behind the value: nothing or the mark. -/
  mark : List Char
  isName_property : isName property = true := by decide
  isValue_value : isValue value = true := by decide
  isMark_mark : (mark.isEmpty || isMark mark) = true := by decide

namespace Declaration

/-- Whether it is a declaration of the property, which is named in lower case. -/
def names (d : Declaration) (property : String) : Bool :=
  d.property.map Char.toLower == property.toList

def isImportant (d : Declaration) : Bool :=
  isMark d.mark

/-- The value in lower case. -/
def meaning (d : Declaration) : String :=
  .ofList (d.value.map Char.toLower)

/-- The value and the mark behind it, in lower case. -/
def wording (d : Declaration) : String :=
  .ofList ((d.value ++ d.mark).map Char.toLower)

end Declaration

/-- The texts between the semicolons of a style attribute, and the declarations that are written there. -/
inductive Writes : List (List Char) → List Declaration → Prop where
  | nil : Writes [] []
  | blank {text : List Char} {texts : List (List Char)} {ds : List Declaration}
      (hText : text.all isSpace = true) (h : Writes texts ds) : Writes (text :: texts) ds
  | declaration {texts : List (List Char)} {ds : List Declaration} (d : Declaration)
      (front beforeColon behindColon back : List Char) (hFront : front.all isSpace = true)
      (hBeforeColon : beforeColon.all isSpace = true) (hBehindColon : behindColon.all isSpace = true)
      (hBack : back.all isSpace = true) (h : Writes texts ds) :
      Writes ((front ++ d.property ++ beforeColon ++ ':' ::
        (behindColon ++ (d.value ++ d.mark) ++ back)) :: texts) (d :: ds)

/-! ### What style sheets apply -/

/-- The declaration of a property that applies: the last important one, or the last one if none is
important. -/
def applied? (ds : List Declaration) (property : String) : Option Declaration :=
  let own := ds.filter (·.names property)
  (own.filter (·.isImportant)).getLast?.or own.getLast?

/-- The first declaration of a property. -/
def first? (ds : List Declaration) (property : String) : Option Declaration :=
  ds.find? (·.names property)

/-! ### How the declarations are read -/

theorem isBlank_of_mem_spaces (h : cs.all isSpace = true) {c : Char} (hc : c ∈ cs) :
    isBlank c = true := by
  have hSpace := List.all_eq_true.mp h c hc
  simp only [isSpace, Bool.or_eq_true, beq_iff_eq] at hSpace
  rcases hSpace with (((rfl | rfl) | rfl) | rfl) | rfl <;> rfl

theorem ne_of_mem_spaces (h : cs.all isSpace = true) {c d : Char} (hc : c ∈ cs)
    (hd : isSpace d = false) : c ≠ d := by
  rintro rfl
  rw [List.all_eq_true.mp h c hc] at hd
  cases hd

theorem isBlank_of_isAlpha {c : Char} (h : c.isAlpha = true) : isBlank c = false := by
  have hRange : (65 ≤ c.toNat ∧ c.toNat ≤ 90) ∨ (97 ≤ c.toNat ∧ c.toNat ≤ 122) := by
    simpa [Char.isAlpha, Char.isUpper, Char.isLower, UInt32.le_iff_toNat_le] using h
  simp only [isBlank, Bool.or_eq_false_iff, Bool.and_eq_false_iff, decide_eq_false_iff_not,
    beq_eq_false_iff_ne]
  omega

/-- What is no small letter is the lower case of itself only. -/
theorem eq_of_toLower_eq {c d : Char} (h : c.toLower = d) (hd : d.isLower = false) : c = d := by
  have hAlpha : c.isAlpha = false := by rw [← Char.isLower_toLower_eq_isAlpha, h, hd]
  have hUpper : ¬ c.isUpper := by
    simp only [Char.isAlpha, Bool.or_eq_false_iff] at hAlpha
    simp [hAlpha.1]
  rw [← h, Char.toLower_eq_of_not_isUpper hUpper]

/-- A mark consists of blanks, an exclamation mark, blanks and letters. -/
theorem exists_of_isMark (h : isMark cs = true) :
    ∃ front between word : List Char, cs = front ++ '!' :: (between ++ word) ∧
      front.all isSpace = true ∧ between.all isSpace = true ∧ word ≠ [] ∧
      ∀ c ∈ word, c.isAlpha = true := by
  unfold isMark at h
  split at h
  · next rest hRest =>
      have hWord : (rest.dropWhile isSpace).map Char.toLower = "important".toList := beq_iff_eq.mp h
      refine ⟨cs.takeWhile isSpace, rest.takeWhile isSpace, rest.dropWhile isSpace, ?_,
        List.all_takeWhile, List.all_takeWhile, ?_, fun c hc => ?_⟩
      · rw [List.takeWhile_append_dropWhile, ← hRest, List.takeWhile_append_dropWhile]
      · intro hNil
        rw [hNil] at hWord
        cases hWord
      · have hLower : c.toLower ∈ "important".toList := hWord ▸ List.mem_map_of_mem hc
        have hAll : "important".toList.all Char.isLower = true := by decide
        rw [← Char.isLower_toLower_eq_isAlpha]
        exact List.all_eq_true.mp hAll _ hLower
  · cases h

namespace Declaration

variable (d : Declaration)

theorem property_ne_nil : d.property ≠ [] := by
  have h := d.isName_property
  simp only [isName, Bool.and_eq_true, Bool.not_eq_true', List.isEmpty_eq_false_iff] at h
  exact h.1

theorem of_mem_property {c : Char} (hc : c ∈ d.property) : isBlank c = false ∧ c ≠ ':' ∧ c ≠ ';' := by
  have h := d.isName_property
  simp only [isName, Bool.and_eq_true, List.all_eq_true] at h
  simpa [and_assoc] using h.2 c hc

theorem value_ne_nil : d.value ≠ [] := by
  have h := d.isValue_value
  simp only [isValue, Bool.and_eq_true, Bool.not_eq_true', List.isEmpty_eq_false_iff] at h
  exact h.1.1.1

theorem isBlank_of_head? {c : Char} (hc : c ∈ d.value.head?) : isBlank c = false := by
  have h := d.isValue_value
  simp only [isValue, Bool.and_eq_true, Bool.not_eq_true'] at h
  simpa [Option.mem_def.mp hc] using h.1.1.2

theorem of_mem_value {c : Char} (hc : c ∈ d.value) : c ≠ ';' ∧ c ≠ '!' := by
  have h := d.isValue_value
  simp only [isValue, Bool.and_eq_true, List.all_eq_true] at h
  simpa using h.2 c hc

theorem mark_cases : d.mark = [] ∨ isMark d.mark = true := by
  simpa [Bool.or_eq_true] using d.isMark_mark

theorem ne_semicolon_of_mem_mark {c : Char} (hc : c ∈ d.mark) : c ≠ ';' := by
  rcases d.mark_cases with hNil | hMark
  · rw [hNil] at hc
    cases hc
  · obtain ⟨front, between, word, hEq, hFront, hBetween, _, hWord⟩ := exists_of_isMark hMark
    rw [hEq] at hc
    simp only [List.mem_append, List.mem_cons] at hc
    rcases hc with hc | rfl | hc | hc
    · exact ne_of_mem_spaces hFront hc rfl
    · decide
    · exact ne_of_mem_spaces hBetween hc rfl
    · rintro rfl
      exact absurd (hWord _ hc) (by decide)

/-- The value with its mark ends in no blank. -/
theorem isBlank_of_getLast? {c : Char} (hc : c ∈ (d.value ++ d.mark).getLast?) :
    isBlank c = false := by
  rcases d.mark_cases with hNil | hMark
  · have h := d.isValue_value
    rw [hNil, List.append_nil] at hc
    simp only [isValue, Bool.and_eq_true, Bool.not_eq_true'] at h
    simpa [Option.mem_def.mp hc] using h.1.2
  · obtain ⟨front, between, word, hEq, _, _, hNonempty, hWord⟩ := exists_of_isMark hMark
    have hShape : d.value ++ d.mark = (d.value ++ front ++ '!' :: between) ++ word := by
      simp [hEq]
    rw [hShape, List.getLast?_append_of_ne_nil _ hNonempty] at hc
    exact isBlank_of_isAlpha (hWord c (List.mem_of_mem_getLast? hc))

theorem wording_eq_meaning (h : d.isImportant = false) : d.wording = d.meaning := by
  have hNil : d.mark = [] := d.mark_cases.resolve_right (by simpa [isImportant] using h)
  rw [wording, meaning, hNil, List.append_nil]

theorem bang_notMem_meaning : '!' ∉ d.meaning.toList := by
  intro h
  rw [meaning, String.toList_ofList] at h
  obtain ⟨c, hc, hLower⟩ := List.mem_map.mp h
  exact (d.of_mem_value hc).2 (eq_of_toLower_eq hLower rfl)

/-- The mark is seen in the wording. -/
theorem bang_mem_wording (h : d.isImportant = true) : '!' ∈ d.wording.toList := by
  obtain ⟨front, between, word, hEq, _⟩ := exists_of_isMark h
  rw [wording, String.toList_ofList]
  refine List.mem_map.mpr ⟨'!', ?_, rfl⟩
  simp [hEq]

/-- The declaration is read off each way to write it. -/
theorem declaration?_written {front beforeColon behindColon back : List Char}
    (hFront : front.all isSpace = true) (hBeforeColon : beforeColon.all isSpace = true)
    (hBehindColon : behindColon.all isSpace = true) (hBack : back.all isSpace = true) :
    declaration? (front ++ d.property ++ beforeColon ++ ':' ::
      (behindColon ++ (d.value ++ d.mark) ++ back)) = some (d.property, d.value ++ d.mark) := by
  have hColon : ∀ c ∈ front ++ d.property ++ beforeColon, (c == ':') = false := by
    intro c hc
    rw [beq_eq_false_iff_ne]
    simp only [List.mem_append] at hc
    rcases hc with (hc | hc) | hc
    · exact ne_of_mem_spaces hFront hc rfl
    · exact (d.of_mem_property hc).2.1
    · exact ne_of_mem_spaces hBeforeColon hc rfl
  have hProperty : trim (front ++ d.property ++ beforeColon) = d.property :=
    trim_append (fun c hc => isBlank_of_mem_spaces hFront hc)
      (fun c hc => isBlank_of_mem_spaces hBeforeColon hc) d.property_ne_nil
      (fun c hc => (d.of_mem_property (List.mem_of_mem_head? hc)).1)
      fun c hc => (d.of_mem_property (List.mem_of_mem_getLast? hc)).1
  have hValue : trim (behindColon ++ (d.value ++ d.mark) ++ back) = d.value ++ d.mark := by
    refine trim_append (fun c hc => isBlank_of_mem_spaces hBehindColon hc)
      (fun c hc => isBlank_of_mem_spaces hBack hc) (by simp [d.value_ne_nil]) (fun c hc => ?_)
      fun c hc => d.isBlank_of_getLast? hc
    rw [List.head?_append_of_ne_nil _ d.value_ne_nil] at hc
    exact d.isBlank_of_head? hc
  rw [declaration?, cutAt_append (p := (· == ':')) hColon (beq_self_eq_true ':'), Option.map_some]
  simp only [hProperty, hValue]

end Declaration

namespace Writes

variable {texts : List (List Char)} {ds : List Declaration}

/-- No text has a semicolon in it. -/
theorem ne_semicolon (h : Writes texts ds) : ∀ text ∈ texts, ∀ c ∈ text, (c == ';') = false := by
  induction h with
  | nil => nofun
  | blank hText _ ih =>
      refine List.forall_mem_cons.mpr ⟨fun c hc => ?_, ih⟩
      exact beq_eq_false_iff_ne.mpr (ne_of_mem_spaces hText hc rfl)
  | declaration d front beforeColon behindColon back hFront hBeforeColon hBehindColon hBack _ ih =>
      refine List.forall_mem_cons.mpr ⟨fun c hc => beq_eq_false_iff_ne.mpr ?_, ih⟩
      simp only [List.mem_append, List.mem_cons] at hc
      rcases hc with ((hc | hc) | hc) | rfl | (hc | hc | hc) | hc
      · exact ne_of_mem_spaces hFront hc rfl
      · exact (d.of_mem_property hc).2.2
      · exact ne_of_mem_spaces hBeforeColon hc rfl
      · decide
      · exact ne_of_mem_spaces hBehindColon hc rfl
      · exact (d.of_mem_value hc).1
      · exact d.ne_semicolon_of_mem_mark hc
      · exact ne_of_mem_spaces hBack hc rfl

/-- What is read off the texts are the declarations, in order, with their marks. -/
theorem filterMap_declaration? (h : Writes texts ds) :
    texts.filterMap declaration? = ds.map fun d => (d.property, d.value ++ d.mark) := by
  induction h with
  | nil => rfl
  | @blank text texts ds hText _ ih =>
      have hNone : declaration? text = none := by
        cases hCut : cutAt (· == ':') text with
        | none => rw [declaration?, hCut, Option.map_none]
        | some parts =>
            obtain ⟨before, behind⟩ := parts
            obtain ⟨c, hc, rfl⟩ := eq_append_of_cutAt hCut
            exact absurd (beq_iff_eq.mp hc) (ne_of_mem_spaces hText (by simp) rfl)
      rw [List.filterMap_cons_none hNone, ih]
  | declaration d front beforeColon behindColon back hFront hBeforeColon hBehindColon hBack _ ih =>
      rw [List.filterMap_cons_some
        (d.declaration?_written hFront hBeforeColon hBehindColon hBack), ih, List.map_cons]

theorem declarations_eq (h : Writes texts ds) :
    declarations (joinWith [';'] texts) = ds.map fun d => (d.property, d.value ++ d.mark) := by
  cases texts with
  | nil =>
      cases h
      rfl
  | cons text texts =>
      rw [declarations, pieces_joinWith (p := (· == ';')) (beq_self_eq_true ';')
        (List.cons_ne_nil _ _) h.ne_semicolon, h.filterMap_declaration?]

/-- A page takes the first declaration of a property, with its mark. -/
theorem value?_eq (h : Writes texts ds) (property : String) :
    value? (joinWith [';'] texts) property = (first? ds property).map (·.wording) := by
  rw [value?, h.declarations_eq, List.find?_map, Option.map_map]
  rfl

end Writes

/-! ### The first declaration and the one that applies -/

variable {ds : List Declaration} {d : Declaration}

theorem applied?_eq_none (h : first? ds property = none) : applied? ds property = none := by
  have hNone : ds.filter (·.names property) = [] :=
    List.filter_eq_nil_iff.mpr fun d hd => by simpa using List.find?_eq_none.mp h d hd
  rw [applied?, hNone]
  rfl

/-- Where a property is declared, some declaration applies. -/
theorem exists_applied? (h : first? ds property = some d) : ∃ w, applied? ds property = some w := by
  have hOwn : ds.filter (·.names property) ≠ [] :=
    List.ne_nil_of_mem (List.mem_filter.mpr
      ⟨List.mem_of_find?_eq_some h, List.find?_some (p := fun d : Declaration => d.names property) h⟩)
  rw [applied?, List.getLast?_eq_some_getLast hOwn]
  cases ((ds.filter (·.names property)).filter (·.isImportant)).getLast? with
  | none => exact ⟨_, rfl⟩
  | some w => exact ⟨w, rfl⟩

/-- What an element's own style declares for a property is, for the page, the first declaration in the
wording that it has. This is what applies just where the first one, if there is one, is not marked and
means what the applied one means. A keyword without exclamation mark is found just where the first one is
not marked and means it. -/
theorem style_takes_first (e : Element) (texts : List (List Char)) (ds : List Declaration)
    (hWrites : Writes texts ds)
    (hStyle : e.attribute? "style" = some (.ofList (joinWith [';'] texts))) (property : String) :
    e.style? property = (first? ds property).map (·.wording) ∧
    (e.style? property = (applied? ds property).map (·.meaning) ↔
      ∀ d, first? ds property = some d →
        d.isImportant = false ∧ (applied? ds property).map (·.meaning) = some d.meaning) ∧
    ∀ keyword : String, '!' ∉ keyword.toList →
      (e.style? property = some keyword ↔
        ∃ d, first? ds property = some d ∧ d.isImportant = false ∧ d.meaning = keyword) := by
  have hRead : e.style? property = (first? ds property).map (·.wording) := by
    rw [Element.style?, hStyle, Option.bind_some, String.toList_ofList, hWrites.value?_eq]
  -- A marked declaration is no keyword, as its mark is seen.
  have hKeyword (d : Declaration) (keyword : String) (hk : '!' ∉ keyword.toList) :
      d.wording = keyword ↔ d.isImportant = false ∧ d.meaning = keyword := by
    cases hImportant : d.isImportant with
    | false => simp [d.wording_eq_meaning hImportant]
    | true =>
        have hBang := d.bang_mem_wording hImportant
        refine ⟨fun hEq => ?_, fun h => nomatch h.1⟩
        rw [hEq] at hBang
        exact absurd hBang hk
  refine ⟨hRead, ?_, fun keyword hk => ?_⟩
  · rw [hRead]
    cases hFirst : first? ds property with
    | none => simp [applied?_eq_none hFirst]
    | some d =>
        obtain ⟨w, hw⟩ := exists_applied? hFirst
        rw [hw, Option.map_some, Option.map_some, Option.some.injEq,
          hKeyword d _ w.bang_notMem_meaning]
        refine ⟨?_, fun h => ?_⟩
        · rintro ⟨hUnmarked, hMeaning⟩ d' hd'
          obtain rfl := Option.some.inj hd'
          exact ⟨hUnmarked, congrArg some hMeaning.symm⟩
        · obtain ⟨hUnmarked, hMeaning⟩ := h d rfl
          exact ⟨hUnmarked, (Option.some.inj hMeaning).symm⟩
  · rw [hRead]
    cases hFirst : first? ds property with
    | none => simp
    | some d => simp [hKeyword d keyword hk]

/-- Capitals, blanks and a semicolon at the end make no difference: the paragraph takes itself out of the
layout, as style sheets say that it does. -/
theorem style_takes_first_capitals :
    let d : Declaration :=
      { property := ['D', 'i', 's', 'p', 'l', 'a', 'y'], value := ['N', 'o', 'n', 'e'], mark := [] }
    let e : Element := ⟨3, .html, "p", [⟨.none, "style", " Display : None ; "⟩]⟩
    e.style? "display" = some "none" ∧ (applied? [d] "display").map (·.meaning) = some "none" ∧
      e.isUnrendered = true := by
  intro d e
  have hWrites : Writes [" Display : None ".toList, " ".toList] [d] :=
    .declaration d [' '] [' '] [' '] [' '] rfl rfl rfl rfl (.blank rfl .nil)
  obtain ⟨_, _, hKeyword⟩ := style_takes_first e _ [d] hWrites (by decide) "display"
  have hStyle : e.style? "display" = some "none" :=
    (hKeyword "none" (by decide)).mpr ⟨d, rfl, by decide, by decide⟩
  refine ⟨hStyle, by decide, ?_⟩
  simp [Element.isUnrendered, hStyle]

/-- A page with a paragraph whose style takes it out of the layout and then puts it back, and a paragraph
whose style marks that it is taken out. -/
def restyled : Page :=
  .load "https://example.org/"
    "<p style='display: none; display: block'>one<p style='display: none !important'>two"

/-- For the page, the first paragraph is not displayed, though it is to be displayed as a block, and the
second is, though no display is what applies. -/
theorem later_and_marked_declarations_are_overlooked :
    let removed : Declaration :=
      { property := "display".toList, value := "none".toList, mark := [] }
    let restored : Declaration :=
      { property := "display".toList, value := "block".toList, mark := [] }
    let marked : Declaration :=
      { property := "display".toList, value := "none".toList, mark := " !important".toList }
    let first := ["display: none".toList, " display: block".toList]
    let second := ["display: none !important".toList]
    (Writes first [removed, restored] ∧
      restyled.answer (.attribute (restyled.handle 3) "style") =
        .ok (some (.ofList (joinWith [';'] first))) ∧
      (applied? [removed, restored] "display").map (·.meaning) = some "block" ∧
      restyled.answer (.displayed (restyled.handle 3)) = .ok false) ∧
    (Writes second [marked] ∧
      restyled.answer (.attribute (restyled.handle 4) "style") =
        .ok (some (.ofList (joinWith [';'] second))) ∧
      (applied? [marked] "display").map (·.meaning) = some "none" ∧
      restyled.answer (.displayed (restyled.handle 4)) = .ok true) := by
  intro removed restored marked first second
  have hFirst : Writes first [removed, restored] :=
    .declaration removed [] [] [' '] [] rfl rfl rfl rfl
      (.declaration restored [' '] [] [' '] [] rfl rfl rfl rfl .nil)
  have hSecond : Writes second [marked] :=
    .declaration marked [] [] [' '] [] rfl rfl rfl rfl .nil
  exact ⟨⟨hFirst, by decide +kernel, by decide, by decide +kernel⟩,
    hSecond, by decide +kernel, by decide, by decide +kernel⟩

end PageLogic.Html.Style
