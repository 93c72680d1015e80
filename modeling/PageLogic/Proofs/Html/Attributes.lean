import PageLogic.Html.Insertion.Foreign
import PageLogic.Text.Lowercase
import Mathlib
/-!
The attributes that tags say and elements carry. A tag says every name in lower case and only once. An
element of a drawing or a formula gives some names their capitals back, and names of links and languages
a vocabulary of their own; no two of its attributes without vocabulary get the same name by that.
-/
namespace PageLogic.Html

open Text

/-- A name in lower case, as tags say it. -/
def IsFolded (name : String) : Prop :=
  lowercaseAscii name = name

theorem isFolded_nameOf (cs : List Char) : IsFolded (nameOf cs) := by
  simp [IsFolded, lowercaseAscii, nameOf, Function.comp_def]

/-! ### Tags -/

/-- What the attributes of a start tag are: they have no vocabulary, and their names are in lower case
and differ. -/
structure Plain (attributes : List Attribute) : Prop where
  space_eq : ∀ a ∈ attributes, a.space = .none
  isFolded : ∀ a ∈ attributes, IsFolded a.name
  nodup : (attributes.map (·.name)).Nodup

variable {attributes attributes' : List Attribute} {name : String} {cs rest : List Char}

theorem plain_nil : Plain [] :=
  ⟨nofun, nofun, .nil⟩

theorem Plain.addAttribute (h : Plain attributes) (hName : IsFolded name) (value : List Char) :
    Plain (addAttribute attributes name value) := by
  unfold Html.addAttribute
  split
  case isTrue => exact h
  case isFalse hNew =>
    have hNew : ∀ a ∈ attributes, a.name ≠ name := by simpa using hNew
    refine ⟨?_, ?_, ?_⟩
    · exact List.forall_mem_append.mpr ⟨h.space_eq, List.forall_mem_singleton.mpr rfl⟩
    · exact List.forall_mem_append.mpr ⟨h.isFolded, List.forall_mem_singleton.mpr hName⟩
    · simpa [List.nodup_append, h.nodup] using hNew

theorem Plain.tagRest {rounds : Nat} {selfClosing : Bool} (h : Plain attributes)
    (hRest : tagRest rounds attributes cs = some (attributes', selfClosing, rest)) :
    Plain attributes' := by
  induction rounds generalizing attributes cs with
  | zero => simp [Html.tagRest] at hRest
  | succ rounds ih =>
      rw [Html.tagRest] at hRest
      split at hRest
      · cases hRest
      · obtain ⟨rfl, -⟩ := Prod.mk.inj (Option.some.inj hRest)
        exact h
      · obtain ⟨rfl, -⟩ := Prod.mk.inj (Option.some.inj hRest)
        exact h
      · exact ih h hRest
      · dsimp only at hRest
        split at hRest
        · obtain ⟨found, -, hFound⟩ := Option.bind_eq_some_iff.mp hRest
          exact ih (h.addAttribute (isFolded_nameOf _) _) hFound
        · exact ih (h.addAttribute (isFolded_nameOf _) _) hRest

theorem plain_of_tag {t : Tag} (h : tag cs = some (t, rest)) : Plain t.attributes := by
  obtain ⟨⟨attributes, selfClosing, rest⟩, hRest, hTag⟩ := Option.map_eq_some_iff.mp h
  obtain ⟨rfl, -⟩ := Prod.mk.inj hTag
  exact plain_nil.tagRest hRest

/-! ### Tokens -/

/-- Whether a token is as the source can say it; the attributes of end tags are of no account. -/
def Token.IsPlain : Token → Prop
  | .startTag t => Plain t.attributes
  | _ => True

@[grind =]
theorem isPlain_startTag {t : Tag} : (Token.startTag t).IsPlain = Plain t.attributes :=
  rfl

theorem isPlain_eof : Token.eof.IsPlain :=
  trivial

theorem isPlain_endTag (t : Tag) : (Token.endTag t).IsPlain :=
  trivial

theorem isPlain_textTokens : ∀ token ∈ textTokens cs, token.IsPlain := by
  refine List.forall_mem_map.mpr fun run _ => ?_
  split <;> trivial

theorem isPlain_endTagTokens : ∀ token ∈ (endTagTokens cs).1, token.IsPlain := by
  unfold endTagTokens
  split
  · exact List.forall_mem_singleton.mpr trivial
  · nofun

theorem isPlain_markupTokens (cdata : Bool) (cs : List Char) :
    ∀ token ∈ (markupTokens cdata cs).1, token.IsPlain := by
  unfold markupTokens
  dsimp only
  -- Declarations, instructions, end tags, start tags and text, of which only start tags have attributes.
  split
  · split
    · exact List.forall_mem_singleton.mpr trivial
    · exact List.forall_mem_singleton.mpr trivial
    · split
      · exact isPlain_textTokens
      · exact List.forall_mem_singleton.mpr trivial
    · exact List.forall_mem_singleton.mpr trivial
  · exact List.forall_mem_singleton.mpr trivial
  · nofun
  · split
    · split
      · exact List.forall_mem_singleton.mpr trivial
      · nofun
    · exact List.forall_mem_singleton.mpr trivial
  · split
    · split
      case h_1 hTag => exact List.forall_mem_singleton.mpr (plain_of_tag hTag)
      case h_2 => nofun
    · exact isPlain_textTokens
  · exact isPlain_textTokens

/-- Whatever is read off a source is as a source can say it. -/
theorem ReadingMode.isPlain_next (mode : ReadingMode) (cdata : Bool) (cs : List Char) :
    ∀ token ∈ (mode.next cdata cs).1, token.IsPlain := by
  have hUpTo (decoded : List Char → List Char) (found : List Char × List Char) :
      ∀ token ∈ (if found.1.isEmpty then endTagTokens found.2
        else (textTokens (decoded (withoutNull found.1)), found.2)).1, token.IsPlain := by
    split
    · exact isPlain_endTagTokens
    · exact isPlain_textTokens
  cases mode with
  | plaintext => exact isPlain_textTokens
  | escapable name => exact hUpTo _ _
  | raw name => exact hUpTo _ _
  | script name => exact hUpTo _ _
  | markup =>
      unfold ReadingMode.next
      dsimp only
      split
      · nofun
      · exact isPlain_markupTokens cdata _
      · exact List.forall_mem_singleton.mpr trivial
      · exact isPlain_textTokens

/-! ### Elements -/

/-- The names that elements of a vocabulary give their capitals back. -/
def capitalized : Space → List (String × String)
  | .html => []
  | .svg => Builder.drawingAttributes
  | .mathml => [("definitionurl", "definitionURL")]

/-- Attributes without vocabulary have different names. -/
def Attribute.Apart (a b : Attribute) : Prop :=
  a.space = .none → b.space = .none → a.name ≠ b.name

instance : Std.Symm Attribute.Apart :=
  ⟨fun _ _ h hSpace hSpace' => (h hSpace' hSpace).symm⟩

/-- What the attributes of an element are: the names of those that have no vocabulary are in lower case,
or among those with capitals, and differ. -/
structure Proper (space : Space) (attributes : List Attribute) : Prop where
  named : ∀ a ∈ attributes, a.space = .none →
    IsFolded a.name ∨ a.name ∈ (capitalized space).map (·.2)
  apart : attributes.Pairwise Attribute.Apart

variable {space : Space}

theorem Plain.apart (h : Plain attributes) :
    attributes.Pairwise fun a b => IsFolded a.name ∧ IsFolded b.name ∧ a.name ≠ b.name :=
  (List.pairwise_map.mp h.nodup).imp_of_mem fun ha hb hne => ⟨h.isFolded _ ha, h.isFolded _ hb, hne⟩

@[grind ←]
theorem Plain.proper (h : Plain attributes) : Proper space attributes where
  named a ha _ := .inl (h.isFolded a ha)
  apart := h.apart.imp fun hApart _ _ => hApart.2.2

theorem withoutNull_of_notMem (h : '\x00' ∉ cs) : withoutNull cs = cs := by
  have hSame : ∀ c ∈ cs, (if c = '\x00' then replacement else c) = id c :=
    fun c hc => if_neg (ne_of_mem_of_not_mem hc h)
  rw [withoutNull, List.map_congr_left hSame, List.map_id]

/-- The names with capitals are listed by what they are in lower case. -/
theorem lowercaseAscii_of_mem_capitalized {entry : String × String} (h : entry ∈ capitalized space) :
    lowercaseAscii entry.2 = entry.1 := by
  cases space with
  | html => cases h
  | mathml =>
      obtain rfl := List.mem_singleton.mp h
      decide
  | svg =>
      have hNull : (capitalized .svg).all (fun entry => !entry.2.toList.contains '\x00') = true := by
        decide +kernel
      have hFree : '\x00' ∉ entry.2.toList := by simpa using List.all_eq_true.mp hNull entry h
      obtain ⟨name, -, rfl⟩ := List.mem_map.mp h
      rw [nameOf, withoutNull_of_notMem hFree, lowercaseAscii]

theorem rename_cases (space : Space) (name : String) :
    Builder.rename (capitalized space) name = name ∨
      Builder.rename (capitalized space) name ∈ (capitalized space).map (·.2) ∧
        lowercaseAscii (Builder.rename (capitalized space) name) = name := by
  unfold Builder.rename
  cases hFound : (capitalized space).lookup name with
  | none => exact .inl rfl
  | some capitals =>
      obtain ⟨front, behind, hEntries, -⟩ := List.lookup_eq_some_iff.mp hFound
      have hMem : (name, capitals) ∈ capitalized space := by simp [hEntries]
      exact .inr ⟨List.mem_map.mpr ⟨_, hMem, rfl⟩, lowercaseAscii_of_mem_capitalized hMem⟩

/-- A name that gets its capitals back is the one that it was. -/
theorem lowercaseAscii_rename (h : IsFolded name) :
    lowercaseAscii (Builder.rename (capitalized space) name) = name := by
  rcases rename_cases space name with hSame | ⟨-, hFolded⟩
  · rw [hSame]
    exact h
  · exact hFolded

theorem foreignAttribute_eq {a : Attribute} (h : (Builder.foreignAttribute a).space = .none) :
    Builder.foreignAttribute a = a := by
  unfold Builder.foreignAttribute at h ⊢
  split at h <;> first | cases h | rfl

/-- The attributes of a start tag as an element of a vocabulary carries them. -/
def adjusted (space : Space) (attributes : List Attribute) : List Attribute :=
  attributes.map fun a =>
    Builder.foreignAttribute { a with name := Builder.rename (capitalized space) a.name }

theorem Plain.adjusted (h : Plain attributes) : Proper space (adjusted space attributes) where
  named := by
    refine List.forall_mem_map.mpr fun a ha hSpace => ?_
    rw [foreignAttribute_eq hSpace]
    rcases rename_cases space a.name with hSame | ⟨hCapitals, -⟩
    · exact .inl (hSame.symm ▸ h.isFolded a ha)
    · exact .inr hCapitals
  apart := by
    refine List.pairwise_map.mpr (h.apart.imp fun hApart hSpace hSpace' hEq => ?_)
    rw [foreignAttribute_eq hSpace, foreignAttribute_eq hSpace'] at hEq
    obtain ⟨hFolded, hFolded', hne⟩ := hApart
    have hSame := congrArg lowercaseAscii hEq
    rw [lowercaseAscii_rename hFolded, lowercaseAscii_rename hFolded'] at hSame
    exact hne hSame

/-- An element may be given the attributes of another tag that it does not have. -/
theorem Proper.append_missing (h : Proper space attributes) (h' : Plain attributes') :
    Proper space (attributes ++ attributes'.filter fun b =>
      !attributes.any fun c => c.space == b.space && c.name == b.name) where
  named := List.forall_mem_append.mpr
    ⟨h.named, fun a ha _ => .inl (h'.isFolded a (List.mem_of_mem_filter ha))⟩
  apart := by
    refine List.pairwise_append.mpr ⟨h.apart, ?_, fun a ha b hb hSpace hSpace' hEq => ?_⟩
    · exact (h'.proper : Proper space attributes').apart.filter _
    · have hMissing := (List.mem_filter.mp hb).2
      have hNone : ∀ c ∈ attributes, c.space = b.space → c.name ≠ b.name := by
        simpa using hMissing
      exact hNone a ha (hSpace.trans hSpace'.symm) hEq

namespace Element

variable {e : Element} {value : String}

/-- An element answers with the value of its attribute of that name, if it has one. -/
theorem attribute?_eq_some_iff (h : Proper e.space e.attributes) :
    e.attribute? name = some value ↔
      ∃ a ∈ e.attributes, a.space = .none ∧ a.name = name ∧ a.value = value := by
  unfold attribute?
  constructor
  · intro hValue
    obtain ⟨a, hFound, rfl⟩ := Option.map_eq_some_iff.mp hValue
    have hName : a.space = .none ∧ a.name = name := by simpa using List.find?_some hFound
    exact ⟨a, List.mem_of_find?_eq_some hFound, hName.1, hName.2, rfl⟩
  · rintro ⟨a, ha, hSpace, rfl, rfl⟩
    cases hFound : e.attributes.find? fun b => b.space == .none && b.name == a.name with
    | none => simpa [hSpace] using List.find?_eq_none.mp hFound a ha
    | some b =>
        have hName : b.space = .none ∧ b.name = a.name := by simpa using List.find?_some hFound
        -- Two attributes of one name are the same.
        have hSame : a = b := by
          by_contra hne
          have hApart := h.apart.forall ha (List.mem_of_find?_eq_some hFound) hne
          exact hApart hSpace hName.1 hName.2.symm
        rw [hSame, Option.map_some]

theorem attribute?_eq_none_iff (h : Proper e.space e.attributes) :
    e.attribute? name = none ↔ ∀ a ∈ e.attributes, a.space = .none → a.name ≠ name := by
  simp only [Option.eq_none_iff_forall_ne_some, ne_eq, attribute?_eq_some_iff h]
  exact ⟨fun hNone a ha hSpace hName => hNone a.value ⟨a, ha, hSpace, hName, rfl⟩,
    fun hNone _ ⟨a, ha, hSpace, hName, _⟩ => hNone a ha hSpace hName⟩

end Element

/-- On the page's own elements all names are in lower case. -/
theorem Proper.isFolded_of_html {a : Attribute} (h : Proper .html attributes) (ha : a ∈ attributes)
    (hSpace : a.space = .none) : IsFolded a.name :=
  (h.named a ha hSpace).resolve_right (nomatch ·)

end PageLogic.Html
