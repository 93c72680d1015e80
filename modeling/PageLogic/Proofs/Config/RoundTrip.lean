import PageLogic.Config
import PageLogic.Proofs.Json.RoundTrip
import Mathlib.Data.List.TakeWhile
/-!
Configurations that are saved and loaded. The text of a configuration is read back as the same
configuration, so that loading a saved one fails only if it breaks a rule.
-/
namespace PageLogic

namespace Text

/-- A text shows something if not all of it is blank. -/
def Shows (s : String) : Prop :=
  ∃ c ∈ s.toList, isBlank c = false

theorem trim_eq_nil_iff {cs : List Char} : trim cs = [] ↔ ∀ c ∈ cs, isBlank c = true := by
  have hRight (cs : List Char) : trimRight cs = [] ↔ ∀ c ∈ cs, isBlank c = true := by
    simp [trimRight, List.dropWhile_eq_nil_iff]
  rw [trim, hRight]
  constructor
  · intro h c hc
    rw [← List.takeWhile_append_dropWhile (p := isBlank) (l := cs), List.mem_append] at hc
    rcases hc with hc | hc
    · exact List.mem_takeWhile_imp hc
    · exact h c hc
  · intro h c hc
    exact h c ((List.dropWhile_sublist _).subset hc)

theorem shows_iff {s : String} : Shows s ↔ trim s.toList ≠ [] := by
  simp [Shows, trim_eq_nil_iff]

end Text

namespace Config

open Json Json.Written

variable {c : Config} {w : Written}

/-- The numbers are numbers of 64 bits. -/
def InRange (c : Config) : Prop :=
  c.browser.commandTimeoutSecs < Word.limit ∧ c.browser.startupTimeoutSecs < Word.limit

/-! ### The text of a configuration -/

def writtenOptional : Option String → Written
  | some s => .string (piecesOf s)
  | none => .null

def scopeFields (s : Scope) : List (String × Written) :=
  [("root", .string (piecesOf s.root)), ("child", .string (piecesOf s.child))]

def browserFields (b : BrowserSettings) : List (String × Written) :=
  [("engine", .string (piecesOf b.engine)),
    ("headed", .bool b.headed),
    ("wsEndpoint", writtenOptional b.wsEndpoint),
    ("userDataDir", writtenOptional b.userDataDir),
    ("commandTimeoutSecs", .number (.ofNat b.commandTimeoutSecs)),
    ("startupTimeoutSecs", .number (.ofNat b.startupTimeoutSecs))]

def sections (c : Config) : List (String × Written) :=
  [("scope", .ofFields (scopeFields c.scope)), ("browser", .ofFields (browserFields c.browser))]

theorem readsAs_optional (s : Option String) : (optionalJson s).ReadsAs (writtenOptional s) := by
  cases s with
  | none => exact readsAs_null
  | some s => exact readsAs_string s

theorem readsAs_scope (s : Scope) : (scopeJson s).ReadsAs (.ofFields (scopeFields s)) :=
  readsAs_object <| .cons ⟨rfl, readsAs_string _⟩ <| .cons ⟨rfl, readsAs_string _⟩ .nil

theorem readsAs_browser (b : BrowserSettings) :
    (browserJson b).ReadsAs (.ofFields (browserFields b)) :=
  readsAs_object <| .cons ⟨rfl, readsAs_string _⟩ <| .cons ⟨rfl, readsAs_bool _⟩ <|
    .cons ⟨rfl, readsAs_optional _⟩ <| .cons ⟨rfl, readsAs_optional _⟩ <|
    .cons ⟨rfl, readsAs_nat _⟩ <| .cons ⟨rfl, readsAs_nat _⟩ .nil

theorem readsAs_config (c : Config) : c.toJson.ReadsAs (.ofFields c.sections) :=
  readsAs_object <| .cons ⟨rfl, readsAs_scope _⟩ <| .cons ⟨rfl, readsAs_browser _⟩ .nil

theorem parse?_text (c : Config) : Written.parse? c.text.toList = some (.ofFields c.sections) := by
  rw [text, pretty, String.toList_ofList]
  exact (readsAs_config c 0).parse?

/-! ### Reading it -/

theorem orNothing_writtenOptional (s : Option String) :
    orNothing Written.string? (some (writtenOptional s)) = some s := by
  cases s with
  | none => rfl
  | some s => simp [writtenOptional, orNothing, string?_piecesOf]

theorem scope?_scopeFields (s : Scope) : scope? (.ofFields (scopeFields s)) = some s := by
  have hRecord := record?_ofFields (scopeFields s) (by simp [scopeFields])
  simp only [scopeFields, List.map_cons, List.map_nil] at hRecord
  simp [scope?, scopeFields, hRecord, orDefault, string?_piecesOf]

theorem browser?_browserFields {b : BrowserSettings} (hCommand : b.commandTimeoutSecs < Word.limit)
    (hStartup : b.startupTimeoutSecs < Word.limit) :
    browser? (.ofFields (browserFields b)) = some b := by
  have hRecord := record?_ofFields (browserFields b) (by simp [browserFields])
  simp only [browserFields, List.map_cons, List.map_nil] at hRecord
  simp [browser?, browserFields, hRecord, orDefault, string?_piecesOf, orNothing_writtenOptional,
    Written.bool?, Written.nat?, Numeral.nat?_ofNat, hCommand, hStartup]

theorem ofWritten?_sections (h : c.InRange) : ofWritten? (.ofFields c.sections) = some c := by
  have hRecord := record?_ofFields c.sections (by simp [sections])
  simp only [sections, List.map_cons, List.map_nil] at hRecord
  simp [ofWritten?, sections, hRecord, orDefault, scope?_scopeFields,
    browser?_browserFields h.1 h.2]

/-- A file gives back the text that was written to it. -/
theorem fromUTF8?_toUTF8 (s : String) : String.fromUTF8? s.toUTF8 = some s := by
  simp [String.fromUTF8?, String.isValidUTF8, String.fromUTF8]

/-- The text of a configuration that breaks no rule is loaded as the configuration. -/
theorem load_text (h : c.InRange) (hRules : c.violation? = none) :
    load (some c.text.toUTF8) = .ok c := by
  simp only [load, fromUTF8?_toUTF8, ofText, parse?_text, Option.bind_some, ofWritten?_sections h,
    hRules]

/-- The rule that it breaks is reported. -/
theorem load_text_of_violation {rule : String} (h : c.InRange)
    (hRule : c.violation? = some rule) :
    load (some c.text.toUTF8) = .error (.config rule) := by
  simp only [load, fromUTF8?_toUTF8, ofText, parse?_text, Option.bind_some, ofWritten?_sections h,
    hRule]

/-! ### What is accepted -/

theorem lt_of_nat? {n : Nat} (h : w.nat? = some n) : n < Word.limit := by
  cases w with
  | number digits =>
      simp only [Written.nat?, Numeral.nat?] at h
      split at h
      · cases h
      · split at h
        · next hLt =>
            obtain rfl := Option.some.inj h
            exact hLt
        · cases h
  | _ => cases h

theorem lt_of_orDefault_nat? {fallback n : Nat} {field : Option Written}
    (h : orDefault Written.nat? fallback field = some n) (hFallback : fallback < Word.limit) :
    n < Word.limit := by
  cases field with
  | none =>
      obtain rfl := Option.some.inj h
      exact hFallback
  | some w => exact lt_of_nat? h

theorem inRange_of_browser? {b : BrowserSettings} (h : browser? w = some b) :
    b.commandTimeoutSecs < Word.limit ∧ b.startupTimeoutSecs < Word.limit := by
  unfold browser? at h
  simp only [Option.bind_eq_bind, Option.bind_eq_some_iff] at h
  obtain ⟨fields, _, h⟩ := h
  split at h
  · simp only [Option.bind_eq_some_iff, Option.some.injEq] at h
    obtain ⟨engine, _, headed, _, ws, _, dir, _, command, hCommand, startup, hStartup, rfl⟩ := h
    exact ⟨lt_of_orDefault_nat? hCommand (by decide), lt_of_orDefault_nat? hStartup (by decide)⟩
  · cases h

theorem inRange_of_ofWritten? (h : ofWritten? w = some c) : c.InRange := by
  unfold ofWritten? at h
  simp only [Option.bind_eq_bind, Option.bind_eq_some_iff] at h
  obtain ⟨fields, _, h⟩ := h
  split at h
  · simp only [Option.bind_eq_some_iff, Option.some.injEq] at h
    obtain ⟨scope, _, settings, hBrowser, rfl⟩ := h
    unfold orDefault at hBrowser
    split at hBrowser
    · obtain rfl := Option.some.inj hBrowser
      have hDefault : BrowserSettings.default.commandTimeoutSecs < Word.limit ∧
          BrowserSettings.default.startupTimeoutSecs < Word.limit := by
        decide
      exact hDefault
    · exact inRange_of_browser? hBrowser
  · cases h

/-- What is loaded has numbers of 64 bits and breaks no rule. -/
theorem inRange_and_rules_of_load {bytes : ByteArray} (h : load (some bytes) = .ok c) :
    c.InRange ∧ c.violation? = none := by
  simp only [load, ofText] at h
  split at h
  · cases h
  · split at h
    · cases h
    · next hRead =>
        split at h
        · cases h
        · next hRules =>
            obtain rfl := Except.ok.inj h
            obtain ⟨w, _, hWritten⟩ := Option.bind_eq_some_iff.mp hRead
            exact ⟨inRange_of_ofWritten? hWritten, hRules⟩

/-! ### Saving and loading -/

/-- A saved configuration is loaded as it was, unless it breaks a rule, and then the first rule that
it breaks is reported. What has been loaded once can be saved and loaded again, as often as one
likes, with the same text every time. -/
theorem load_saved :
    (∀ c : Config, c.InRange →
      (Text.Shows c.scope.root → Text.Shows c.scope.child → c.browser.commandTimeoutSecs ≠ 0 →
        load (some c.text.toUTF8) = .ok c) ∧
      (¬ Text.Shows c.scope.root →
        load (some c.text.toUTF8) = .error (.config "scope.root must not be empty")) ∧
      (Text.Shows c.scope.root → ¬ Text.Shows c.scope.child →
        load (some c.text.toUTF8) = .error (.config "scope.child must not be empty")) ∧
      (Text.Shows c.scope.root → Text.Shows c.scope.child → c.browser.commandTimeoutSecs = 0 →
        load (some c.text.toUTF8) =
          .error (.config "browser.commandTimeoutSecs must be positive"))) ∧
    ∀ (bytes : ByteArray) (c : Config), load (some bytes) = .ok c →
      load (some c.text.toUTF8) = .ok c ∧
        (load (some c.text.toUTF8)).map Config.text = .ok c.text := by
  constructor
  · intro c hRange
    simp only [Text.shows_iff, ne_eq, not_not]
    refine ⟨fun hRoot hChild hCommand => ?_, fun hRoot => ?_, fun hRoot hChild => ?_,
      fun hRoot hChild hCommand => ?_⟩
    · apply load_text hRange
      rw [violation?, if_neg hRoot, if_neg hChild, if_neg hCommand]
    · apply load_text_of_violation hRange
      rw [violation?, if_pos hRoot]
    · apply load_text_of_violation hRange
      rw [violation?, if_neg hRoot, if_pos hChild]
    · apply load_text_of_violation hRange
      rw [violation?, if_neg hRoot, if_neg hChild, if_pos hCommand]
  · intro bytes c h
    obtain ⟨hRange, hRules⟩ := inRange_and_rules_of_load h
    have hAgain := load_text hRange hRules
    refine ⟨hAgain, ?_⟩
    rw [hAgain]
    rfl

/-- The defaults are loaded as they were, also a second time. With a blank root they break a rule. -/
theorem load_saved_default :
    let blank : Config := { default with scope := ⟨" ", "*"⟩ }
    load (some default.text.toUTF8) = .ok default ∧
      (load (some default.text.toUTF8)).map Config.text = .ok default.text ∧
      load (some blank.text.toUTF8) = .error (.config "scope.root must not be empty") := by
  intro blank
  have hShown : Text.Shows "*" := ⟨'*', by decide, by decide⟩
  have hBlank : ¬ Text.Shows " " := by
    rw [Text.shows_iff]
    decide
  have hLoaded := (load_saved.1 default ⟨by decide, by decide⟩).1 hShown hShown (by decide)
  exact ⟨hLoaded, (load_saved.2 _ _ hLoaded).2,
    (load_saved.1 blank ⟨by decide, by decide⟩).2.1 hBlank⟩

end Config

end PageLogic
