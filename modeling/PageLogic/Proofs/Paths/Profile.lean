import PageLogic.Paths
import PageLogic.Proofs.Text.Blank
import Mathlib.Data.List.Infix
/-!
Where paths lead. A path is a sequence of components, and to follow a path is to follow them one after
another; joined paths are followed one after another as well. So the profile of a session is where its
name, with underscores for colons and separators, leads from the directory of all sessions. This is a
directory within it for all names but three: the empty one and a dot lead nowhere, two dots lead out.
Links are left out: a name leads to what has this name.
-/
namespace PageLogic.Path

open Text

variable {directory name : Path} {d : List String}

/-! ### Components -/

inductive Component where
  /-- The path starts at the root. -/
  | root
  /-- The dot that a path starts with. -/
  | here
  | above
  | named (name : String)
  deriving DecidableEq, Repr

/-- What is said between two slashes. Nothing and a dot say nothing. -/
def component? (piece : List Char) : Option Component :=
  if piece = [] ∨ piece = ['.'] then none
  else if piece = ['.', '.'] then some .above
  else some (.named (.ofList piece))

def isSlash (c : Char) : Bool :=
  c == '/'

def parts (path : Path) : List (List Char) :=
  pieces isSlash path.toList

/-- What only the start of a path can say. -/
def lead (path : Path) : List Component :=
  if path.toList.head? = some '/' then [.root]
  else if path.parts.head? = some ['.'] then [.here]
  else []

/-- What a path says wherever it is put. -/
def steps (path : Path) : List Component :=
  path.parts.filterMap component?

def components (path : Path) : List Component :=
  path.lead ++ path.steps

/-- A directory is given by the names that lead to it from the root. The root is above itself. -/
def Component.enter (d : List String) : Component → List String
  | .root => []
  | .here => d
  | .above => d.dropLast
  | .named name => d ++ [name]

/-- The directory that a path leads to from another one. -/
def resolve (path : Path) (d : List String) : List String :=
  path.components.foldl Component.enter d

/-- A name of something in a directory. -/
structure IsOrdinary (name : String) : Prop where
  not_empty : name ≠ ""
  not_here : name ≠ "."
  not_above : name ≠ ".."
  not_separated : ∀ c ∈ name.toList, c ≠ '/' ∧ c ≠ '\\'

/-- The path goes on from the other one by an ordinary name and nothing else. -/
def Extends (path directory : Path) (name : String) : Prop :=
  IsOrdinary name ∧ path.components = directory.components ++ [.named name]

/-- One directory lies somewhere in another one, and is not the same. -/
def IsWithin (d e : List String) : Prop :=
  e <+: d ∧ d ≠ e

theorem not_isWithin_append (d e : List String) : ¬ IsWithin d (d ++ e) :=
  fun h => h.2 ((List.prefix_append d e).eq_of_length_le h.1.length_le)

theorem isWithin_concat (d : List String) (name : String) : IsWithin (d ++ [name]) d :=
  ⟨List.prefix_append d [name], by simp⟩

theorem component?_toList (name : String) :
    component? name.toList =
      if name = "" ∨ name = "." then none
      else if name = ".." then some .above
      else some (.named name) := by
  have hDot : name.toList = ['.'] ↔ name = "." := by
    rw [← String.toList_inj]
    rfl
  have hDots : name.toList = ['.', '.'] ↔ name = ".." := by
    rw [← String.toList_inj]
    rfl
  simp only [component?, String.toList_eq_nil_iff, hDot, hDots, String.ofList_toList]

theorem component?_eq_named_iff {name name' : String} :
    component? name'.toList = some (.named name) ↔ name = name' ∧ name' ∉ ["", ".", ".."] := by
  rw [component?_toList]
  split_ifs with hNothing hAbove
  · rcases hNothing with rfl | rfl <;> simp
  · subst hAbove
    simp
  · simp [not_or.mp hNothing, hAbove, eq_comm]

theorem head?_ne_of_notMem (h : '/' ∉ name.toList) : name.toList.head? ≠ some '/' :=
  fun hHead => h (List.mem_of_mem_head? hHead)

/-- A path without slashes is a single piece. -/
theorem steps_of_notMem (h : '/' ∉ name.toList) : name.steps = (component? name.toList).toList := by
  have hParts : name.parts = [name.toList] :=
    pieces_of_forall fun c hc => by simpa [isSlash] using ne_of_mem_of_not_mem hc h
  cases hc : component? name.toList <;> simp [steps, hParts, hc]

/-! ### Joined paths -/

theorem join_of_absolute (h : name.toList.head? = some '/') : join directory name = name := by
  rw [join, if_pos h]

theorem join_empty (name : Path) : join "" name = name := by
  simp [join]

/-- A joined path starts as the directory does, whose pieces are followed by those of the name. Only a
slash at the end of the directory is not put a second time. -/
theorem parts_join (hDirectory : directory ≠ "") (hName : name.toList.head? ≠ some '/') :
    (join directory name).toList.head? = directory.toList.head? ∧
    ∃ front, front ≠ [] ∧ (directory.parts = front ∨ directory.parts = front ++ [[]]) ∧
      (join directory name).parts = front ++ name.parts := by
  have hSlash : isSlash '/' = true := rfl
  have hNonempty : directory.toList ≠ [] := by simpa using hDirectory
  by_cases hLast : directory.toList.getLast? = some '/'
  · obtain ⟨cs, hText⟩ := List.getLast?_eq_some_iff.mp hLast
    have hJoin : (join directory name).toList = directory.toList ++ name.toList := by
      simp [join, hName, hLast]
    refine ⟨?_, pieces isSlash cs, pieces_ne_nil _ cs, .inr ?_, ?_⟩
    · rw [hJoin, List.head?_append_of_ne_nil _ hNonempty]
    · rw [parts, hText, pieces_append_cons hSlash]
      rfl
    · rw [parts, hJoin, hText, List.append_assoc, List.singleton_append,
        pieces_append_cons hSlash]
      rfl
  · have hJoin : (join directory name).toList = directory.toList ++ '/' :: name.toList := by
      simp [join, hName, hLast, hDirectory]
    refine ⟨?_, directory.parts, pieces_ne_nil _ _, .inl rfl, ?_⟩
    · rw [hJoin, List.head?_append_of_ne_nil _ hNonempty]
    · rw [parts, hJoin, pieces_append_cons hSlash]
      rfl

theorem components_join (hDirectory : directory ≠ "") (hName : name.toList.head? ≠ some '/') :
    (join directory name).components = directory.components ++ name.steps := by
  obtain ⟨hHead, front, hFront, hParts, hJoin⟩ := parts_join hDirectory hName
  have hFirst : (join directory name).parts.head? = directory.parts.head? := by
    rcases hParts with h | h <;> simp [hJoin, h, List.head?_append_of_ne_nil _ hFront]
  have hLead : (join directory name).lead = directory.lead := by
    rw [lead, lead, hHead, hFirst]
  have hSteps : (join directory name).steps = directory.steps ++ name.steps := by
    rcases hParts with h | h <;> simp [steps, hJoin, h, component?]
  rw [components, components, hLead, hSteps, List.append_assoc]

/-- Where a path does not start at the root, its start leads nowhere. -/
theorem resolve_eq_steps (h : name.toList.head? ≠ some '/') (d : List String) :
    name.resolve d = name.steps.foldl Component.enter d := by
  rw [resolve, components, lead, if_neg h]
  split <;> rfl

/-- To follow a joined path is to follow the one path and then the other. -/
theorem resolve_join (directory name : Path) (d : List String) :
    (join directory name).resolve d = name.resolve (directory.resolve d) := by
  by_cases hName : name.toList.head? = some '/'
  · -- The root is where it is, wherever one starts.
    rw [join_of_absolute hName]
    simp [resolve, components, lead, hName, Component.enter]
  · by_cases hDirectory : directory = ""
    · subst hDirectory
      rw [join_empty]
      rfl
    · rw [resolve_eq_steps hName, resolve, components_join hDirectory hName, List.foldl_append]
      rfl

/-- Where a name without slashes leads. -/
theorem resolve_of_notMem (h : '/' ∉ name.toList) (d : List String) :
    name.resolve d =
      if name = "" ∨ name = "." then d
      else if name = ".." then d.dropLast
      else d ++ [name] := by
  rw [resolve_eq_steps (head?_ne_of_notMem h), steps_of_notMem h, component?_toList]
  split_ifs <;> rfl

end PageLogic.Path

namespace PageLogic.Paths

open PageLogic.Path

variable {session : String}

/-! ### Names of sessions -/

theorem ne_of_mem_safeName {c : Char} (h : c ∈ (safeName session).toList) :
    c ≠ ':' ∧ c ≠ '/' ∧ c ≠ '\\' := by
  rw [safeName, String.toList_map] at h
  obtain ⟨c', _, rfl⟩ := List.mem_map.mp h
  split
  · decide
  · simp_all

theorem slash_notMem_safeName (session : String) : '/' ∉ (safeName session).toList :=
  fun h => (ne_of_mem_safeName h).2.1 rfl

theorem safeName_eq_self (h : ∀ c ∈ session.toList, c ≠ ':' ∧ c ≠ '/' ∧ c ≠ '\\') :
    safeName session = session := by
  rw [← String.toList_inj, safeName, String.toList_map, ← List.map_id session.toList, List.map_map]
  exact List.map_congr_left fun c hc => by simp [h c hc]

/-- Only dots become dots. -/
theorem safeName_eq_iff {name : String} (hDots : ∀ c ∈ name.toList, c = '.') :
    safeName session = name ↔ session = name := by
  constructor
  · rintro rfl
    refine (safeName_eq_self fun c hc => ?_).symm
    have hDot := hDots _ (by rw [safeName, String.toList_map]; exact List.mem_map_of_mem hc)
    split at hDot
    · exact absurd hDot (by decide)
    · subst hDot
      decide
  · rintro rfl
    exact safeName_eq_self fun c hc => by simp [hDots c hc]

theorem safeName_mem_iff : safeName session ∈ ["", ".", ".."] ↔ session ∈ ["", ".", ".."] := by
  simp [safeName_eq_iff]

theorem isOrdinary_safeName (h : session ∉ ["", ".", ".."]) : IsOrdinary (safeName session) := by
  rw [← safeName_mem_iff] at h
  obtain ⟨hEmpty, hDot, hDots⟩ :
      safeName session ≠ "" ∧ safeName session ≠ "." ∧ safeName session ≠ ".." := by simpa using h
  exact ⟨hEmpty, hDot, hDots, fun c hc => (ne_of_mem_safeName hc).2⟩

/-! ### Profiles -/

theorem sessionsDir_ne_empty (p : Paths) : p.sessionsDir ≠ "" := by
  intro h
  have hText := congrArg String.toList h
  unfold sessionsDir join at hText
  split_ifs at hText <;> simp at hText

theorem components_sessionProfile (p : Paths) (session : String) :
    (p.sessionProfile session).components =
      p.sessionsDir.components ++ (component? (safeName session).toList).toList := by
  have hSlash := slash_notMem_safeName session
  rw [sessionProfile, components_join p.sessionsDir_ne_empty (head?_ne_of_notMem hSlash),
    steps_of_notMem hSlash]

theorem resolve_sessionsDir (p : Paths) (d : List String) :
    p.sessionsDir.resolve d = p.base.resolve d ++ ["sessions"] := by
  rw [sessionsDir, resolve_join, resolve_of_notMem (by decide)]
  rfl

/-- The name of a session leads from the directory of all sessions to the profile. -/
theorem resolve_sessionProfile (p : Paths) (session : String) (d : List String) :
    (p.sessionProfile session).resolve d =
      if session ∈ ["", "."] then p.sessionsDir.resolve d
      else if session = ".." then p.base.resolve d
      else p.sessionsDir.resolve d ++ [safeName session] := by
  rw [sessionProfile, resolve_join, resolve_of_notMem (slash_notMem_safeName session)]
  simp [safeName_eq_iff, resolve_sessionsDir]

/-- Where the name of a session is neither empty nor one or two dots, its profile is in the directory of
all sessions, under its name with underscores for colons and separators. For these three names it is not
within that directory: it is the directory itself, or for two dots the one above it, which has the
configuration in it. -/
theorem profile_within_sessions_iff (p : Paths) (session : String) :
    (∀ name, (p.sessionProfile session).Extends p.sessionsDir name ↔
      name = safeName session ∧ session ∉ ["", ".", ".."]) ∧
    ∀ d : List String,
      (IsWithin ((p.sessionProfile session).resolve d) (p.sessionsDir.resolve d) ↔
        session ∉ ["", ".", ".."]) ∧
      (p.sessionProfile session).resolve d =
        if session ∈ ["", "."] then p.sessionsDir.resolve d
        else if session = ".." then p.base.resolve d
        else p.sessionsDir.resolve d ++ [safeName session] := by
  refine ⟨fun name => ?_, fun d => ⟨?_, p.resolve_sessionProfile session d⟩⟩
  · rw [Extends, components_sessionProfile, List.append_cancel_left_eq, Option.toList_eq_singleton_iff,
      component?_eq_named_iff, safeName_mem_iff]
    refine ⟨fun h => h.2, ?_⟩
    rintro ⟨rfl, hSession⟩
    exact ⟨isOrdinary_safeName hSession, rfl, hSession⟩
  · have hOne : session ∈ ["", ".", ".."] ↔ session ∈ ["", "."] ∨ session = ".." := by
      simp [or_assoc]
    rw [resolve_sessionProfile]
    split_ifs with hStay hLeave
    · refine iff_of_false ?_ (not_not.mpr (hOne.mpr (.inl hStay)))
      simpa using not_isWithin_append (p.sessionsDir.resolve d) []
    · rw [resolve_sessionsDir]
      exact iff_of_false (not_isWithin_append _ _) (not_not.mpr (hOne.mpr (.inr hLeave)))
    · exact iff_of_true (isWithin_concat _ _) fun h => (hOne.mp h).elim hStay hLeave

/-- A name that climbs and comes with slashes and a colon is one name in the directory of all sessions. -/
theorem profile_within_sessions_climbing :
    let p : Paths := ⟨"/home/.domlogic"⟩
    let session := "../../a:b"
    (p.sessionProfile session).Extends p.sessionsDir ".._.._a_b" ∧
      (p.sessionProfile session).resolve [] = ["home", ".domlogic", "sessions", ".._.._a_b"] ∧
      IsWithin ((p.sessionProfile session).resolve []) (p.sessionsDir.resolve []) := by
  intro p session
  obtain ⟨hExtends, hResolve⟩ := profile_within_sessions_iff p session
  have hSession : session ∉ ["", ".", ".."] := by decide
  have hName : safeName session = ".._.._a_b" := by decide +kernel
  refine ⟨(hExtends _).mpr ⟨hName.symm, hSession⟩, ?_, (hResolve []).1.mpr hSession⟩
  rw [(hResolve []).2]
  decide +kernel

/-- Two dots are kept, and lead from the directory of all sessions to the one above it, so that the
profile is where the configuration is. An empty name is kept as well, and all of the directory is the
profile. -/
theorem dots_lead_out_of_sessions :
    let p : Paths := ⟨"/home/.domlogic"⟩
    (p.sessionProfile ".." = "/home/.domlogic/sessions/.." ∧
      (p.sessionProfile "..").resolve [] = p.base.resolve [] ∧
      ¬ IsWithin ((p.sessionProfile "..").resolve []) (p.sessionsDir.resolve []) ∧
      ¬ ∃ name, (p.sessionProfile "..").Extends p.sessionsDir name) ∧
    (p.sessionProfile "" = "/home/.domlogic/sessions/" ∧
      (p.sessionProfile "").resolve [] = p.sessionsDir.resolve [] ∧
      ¬ ∃ name, (p.sessionProfile "").Extends p.sessionsDir name) := by
  intro p
  have hAbove : (p.sessionProfile "..").components = p.sessionsDir.components ++ [.above] := by
    decide +kernel
  have hNone : (p.sessionProfile "").components = p.sessionsDir.components := by
    decide +kernel
  refine ⟨⟨by decide +kernel, by decide +kernel, ?_, ?_⟩, by decide +kernel, by decide +kernel, ?_⟩
  · rintro ⟨hPrefix, _⟩
    exact absurd hPrefix.length_le (by decide +kernel)
  · rintro ⟨name, _, h⟩
    simp [hAbove] at h
  · rintro ⟨name, _, h⟩
    simp [hNone] at h

end PageLogic.Paths
