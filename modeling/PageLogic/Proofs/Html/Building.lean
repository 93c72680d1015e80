import PageLogic.Proofs.Html.Arena
/-!
No move of the builder makes an element other than from a start tag: the elements under construction,
and the formatting elements to be opened again, carry attributes as elements do.
-/
namespace PageLogic.Html.Builder

/-- Whether an entry has a tag as a source can say it. -/
def Formatting.IsPlain : Formatting → Prop
  | .marker => True
  | .element _ t => Plain t.attributes

/-- Whether all elements made so far carry attributes as elements do, and the tags to be opened again
are as a source can say them. -/
structure IsProper (b : Builder) : Prop where
  arena : b.arena.IsProper
  formatting : ∀ entry ∈ b.formatting, Formatting.IsPlain entry

attribute [grind →] IsProper.arena

theorem isProper_start : start.IsProper :=
  ⟨Arena.isProper_empty, nofun⟩

theorem isProper_ite {c : Prop} [Decidable c] {b b' : Builder} (h : b.IsProper) (h' : b'.IsProper) :
    (if c then b else b').IsProper := by
  split
  · exact h
  · exact h'

namespace IsProper

variable {b : Builder} {t : Tag}

/-- Moves that make no element, and enter none to be opened again, can be ignored. -/
theorem congr {b' : Builder} (h : b.IsProper) (hArena : b'.arena = b.arena)
    (hFormatting : b'.formatting ⊆ b.formatting) : b'.IsProper :=
  ⟨hArena ▸ h.arena, fun entry hEntry => h.formatting entry (hFormatting hEntry)⟩

theorem withArena (h : b.IsProper) {arena : Arena} (hArena : arena.IsProper) :
    { b with arena }.IsProper :=
  ⟨hArena, h.formatting⟩

theorem withStack (h : b.IsProper) (stack : List Nat) : { b with stack }.IsProper :=
  ⟨h.arena, h.formatting⟩

/-! ### Closing elements -/

@[grind ←]
theorem pop (h : b.IsProper) : b.pop.IsProper :=
  h.withStack _

@[grind ←]
theorem push (h : b.IsProper) (n : Nat) : (b.push n).IsProper :=
  h.withStack _

@[grind ←]
theorem popWhile (h : b.IsProper) (p : Name → Bool) : (b.popWhile p).IsProper :=
  h.withStack _

@[grind ←]
theorem popThrough (h : b.IsProper) (p : Name → Bool) : (b.popThrough p).IsProper :=
  (h.popWhile _).pop

@[grind ←]
theorem popThroughHtml (h : b.IsProper) (name : String) : (b.popThroughHtml name).IsProper :=
  h.popThrough _

@[grind ←]
theorem popTo (h : b.IsProper) (p : Name → Bool) : (b.popTo p).IsProper :=
  h.popWhile _

@[grind ←]
theorem closeImplied (h : b.IsProper) : b.closeImplied.IsProper :=
  h.popWhile _

@[grind ←]
theorem closeImpliedExcept (h : b.IsProper) (name : String) : (b.closeImpliedExcept name).IsProper :=
  h.popWhile _

@[grind ←]
theorem removeFromStack (h : b.IsProper) (n : Nat) : (b.removeFromStack n).IsProper :=
  h.withStack _

@[grind ←]
theorem closeParagraph (h : b.IsProper) : b.closeParagraph.IsProper :=
  (h.popWhile _).popThroughHtml "p"

@[grind ←]
theorem closeParagraphInScope (h : b.IsProper) : b.closeParagraphInScope.IsProper :=
  isProper_ite h.closeParagraph h

@[grind ←]
theorem closeGeneric (h : b.IsProper) (name : String) : (b.closeGeneric name).IsProper := by
  unfold Builder.closeGeneric
  induction b.stack with
  | nil => exact h
  | cons n rest ih => exact isProper_ite (h.withStack rest) (isProper_ite h ih)

/-! ### Making nodes -/

@[grind ←]
theorem insertNode (h : b.IsProper) (n : Nat) (target? : Option Nat) :
    (b.insertNode n target?).IsProper := by
  unfold Builder.insertNode
  split
  · exact h.withArena (h.arena.append _ n)
  · exact isProper_ite (h.withArena (h.arena.insertBefore _ n)) (h.withArena (h.arena.append _ n))

@[grind ←]
theorem insertText (h : b.IsProper) (text : String) : (b.insertText text).IsProper := by
  unfold Builder.insertText
  split
  · exact h.withArena (h.arena.appendText _ text)
  · exact isProper_ite (h.withArena (h.arena.insertTextBefore _ text))
      (h.withArena (h.arena.appendText _ text))

@[grind ←]
theorem insertComment (h : b.IsProper) (text : String) : (b.insertComment text).IsProper :=
  (h.withArena (h.arena.make (.comment text) trivial)).insertNode _ none

@[grind ←]
theorem insertCommentUnder (h : b.IsProper) (p : Nat) (text : String) :
    (b.insertCommentUnder p text).IsProper :=
  h.withArena ((h.arena.make (.comment text) trivial).append p _)

@[grind ←]
theorem insertVoid (h : b.IsProper) {space : Space} {attributes : List Attribute}
    (hProper : Proper space attributes) (name : String) :
    (b.insertVoid space name attributes).2.IsProper :=
  (h.withArena (h.arena.make (.element space name attributes) hProper)).insertNode _ none

@[grind ←]
theorem insertOpen (h : b.IsProper) {space : Space} {attributes : List Attribute}
    (hProper : Proper space attributes) (name : String) :
    (b.insertOpen space name attributes).2.IsProper :=
  (h.insertVoid hProper name).push _

@[grind ←]
theorem openTag (h : b.IsProper) (ht : Plain t.attributes) : (b.openTag t).IsProper :=
  h.insertOpen ht.proper t.name

@[grind ←]
theorem voidTag (h : b.IsProper) (ht : Plain t.attributes) : (b.voidTag t).IsProper :=
  h.insertVoid ht.proper t.name

@[grind ←]
theorem openImplied (h : b.IsProper) (name : String) : (b.openImplied name).IsProper :=
  h.insertOpen plain_nil.proper name

@[grind ←]
theorem openRoot (h : b.IsProper) {attributes : List Attribute} (hPlain : Plain attributes) :
    (b.openRoot attributes).IsProper :=
  (h.withArena
    ((h.arena.make (.element .html "html" attributes) hPlain.proper).append 0 _)).withStack _

@[grind ←]
theorem openForeign (h : b.IsProper) (space : Space) (ht : Plain t.attributes) :
    (b.openForeign space t).IsProper := by
  have hProper : Proper space (adjusted space t.attributes) := ht.adjusted
  have hOpen : b.openForeign space t =
      ((if t.selfClosing then b.insertVoid else b.insertOpen) space t.name
        (adjusted space t.attributes)).2 := by
    cases space <;> rfl
  rw [hOpen]
  split
  · exact h.insertVoid hProper t.name
  · exact h.insertOpen hProper t.name

/-! ### Formatting elements -/

@[grind ←]
theorem pushMarker (h : b.IsProper) : b.pushMarker.IsProper :=
  ⟨h.arena, List.forall_mem_cons.mpr ⟨trivial, h.formatting⟩⟩

@[grind ←]
theorem clearToMarker (h : b.IsProper) : b.clearToMarker.IsProper :=
  h.congr rfl fun _ hEntry => (List.dropWhile_sublist _).mem (List.mem_of_mem_tail hEntry)

@[grind ←]
theorem forgetFormatting (h : b.IsProper) (n : Nat) : (b.forgetFormatting n).IsProper :=
  h.congr rfl List.eraseP_subset

/-- Entering a formatting element of a tag that is as a source says it. -/
theorem enter (h : b.IsProper) (ht : Plain t.attributes) (n : Nat) :
    { b with formatting := .element n t :: b.formatting }.IsProper :=
  ⟨h.arena, List.forall_mem_cons.mpr ⟨ht, h.formatting⟩⟩

/-- A formatting element that can be reached has a tag as a source says it. -/
theorem plain_of_mem_reachable (h : b.IsProper) {n : Nat} (hReachable : (n, t) ∈ b.reachable) :
    Plain t.attributes := by
  obtain ⟨entry, hEntry, hFound⟩ := List.mem_filterMap.mp hReachable
  cases entry with
  | marker => cases hFound
  | element m u =>
      obtain ⟨rfl, rfl⟩ := Prod.mk.inj (Option.some.inj hFound)
      exact h.formatting (.element _ _) ((List.takeWhile_sublist _).mem hEntry)

@[grind ←]
theorem openFormatting (h : b.IsProper) (ht : Plain t.attributes) : (b.openFormatting t).IsProper := by
  unfold Builder.openFormatting
  dsimp only
  split
  · exact ((h.forgetFormatting _).insertOpen ht.proper t.name).enter ht _
  · exact (h.insertOpen ht.proper t.name).enter ht _

@[grind ←]
theorem reopenFormatting (h : b.IsProper) : b.reopenFormatting.IsProper := by
  unfold Builder.reopenFormatting
  refine List.foldlRecOn _ _ (h.congr rfl (List.drop_subset _ _)) fun b' h' entry hEntry => ?_
  cases entry with
  | marker => exact h'
  | element n t =>
      have ht : Plain t.attributes :=
        h.formatting (.element n t) ((List.takeWhile_sublist _).mem (List.mem_reverse.mp hEntry))
      exact (h'.insertOpen ht.proper t.name).enter ht _

/-- One element between a block and its formatting element. -/
theorem walkStep {w : Walk} (h : w.builder.IsProper) (block count node : Nat) :
    (w.step block count node).builder.IsProper := by
  unfold Walk.step
  dsimp only
  split
  · exact h.forgetFormatting node
  · split
    · rename_i m t hFound
      have ht : Plain t.attributes := h.formatting (.element m t) (List.mem_of_find?_eq_some hFound)
      refine ⟨(h.arena.make (.element .html t.name t.attributes) ht.proper).append _ _,
        List.forall_mem_map.mpr fun entry hEntry => ?_⟩
      cases entry with
      | marker => trivial
      | element =>
          dsimp only
          split
          · exact ht
          · exact h.formatting _ hEntry
    · exact h

theorem exchange (h : b.IsProper) (ht : Plain t.attributes) (formatting : Nat) (inner : List Nat)
    (block : Nat) (between below : List Nat) :
    (b.exchange formatting t inner block between below).IsProper := by
  unfold Builder.exchange
  dsimp only
  generalize hWalk : List.foldl _ _ _ = walk
  have hWalked : walk.builder.IsProper := by
    rw [← hWalk]
    exact List.foldlRecOn (motive := fun w : Walk => w.builder.IsProper) _ _ h
      fun w hw entry _ => hw.walkStep block entry.2 entry.1
  have hHung :=
    (hWalked.withArena (hWalked.arena.detach walk.last)).insertNode walk.last below.head?
  generalize Builder.insertNode _ walk.last below.head? = hung at hHung ⊢
  refine ⟨?_, ?_⟩
  · exact ((hHung.arena.make (.element .html t.name t.attributes) ht.proper).adopt block _).append _ _
  · dsimp only
    split
    · refine List.forall_mem_map.mpr fun entry hEntry => ?_
      split
      · exact ht
      · exact hHung.formatting entry hEntry
    · intro entry hEntry
      obtain ⟨old, hOld, hEntry⟩ := List.mem_flatMap.mp (List.mem_of_mem_eraseP hEntry)
      have hKept := hHung.formatting old hOld
      split at hEntry
      · rcases List.mem_cons.mp hEntry with rfl | hEntry
        · exact ht
        · exact List.mem_singleton.mp hEntry ▸ hKept
      · exact List.mem_singleton.mp hEntry ▸ hKept

theorem closeFormattingOnce (h : b.IsProper) (name : String) :
    (b.closeFormattingOnce name).1.IsProper := by
  unfold Builder.closeFormattingOnce
  split
  · exact h.closeGeneric name
  · rename_i node t hFound
    have ht := h.plain_of_mem_reachable (List.mem_of_find?_eq_some hFound)
    split
    · exact h.forgetFormatting node
    · split
      · exact h
      · dsimp only
        split
        · exact (h.withStack _).forgetFormatting node
        · exact h.exchange ht node _ _ _ _

@[grind ←]
theorem closeFormattingRounds (h : b.IsProper) (rounds : Nat) (name : String) :
    (b.closeFormattingRounds rounds name).IsProper := by
  induction rounds generalizing b with
  | zero => exact h
  | succ rounds ih =>
      have hOnce := h.closeFormattingOnce name
      unfold Builder.closeFormattingRounds
      split
      · rename_i hMore
        rw [hMore] at hOnce
        exact ih hOnce
      · rename_i hDone
        rwa [hDone] at hOnce

@[grind ←]
theorem closeFormatting (h : b.IsProper) (name : String) : (b.closeFormatting name).IsProper := by
  unfold Builder.closeFormatting
  split
  · exact isProper_ite h.pop (h.closeFormattingRounds 8 name)
  · exact h

/-! ### Modes -/

@[grind ←]
theorem resetMode (h : b.IsProper) : b.resetMode.IsProper :=
  ⟨h.arena, h.formatting⟩

@[grind ←]
theorem readText (h : b.IsProper) (reading : ReadingMode) : (b.readText reading).IsProper :=
  ⟨h.arena, h.formatting⟩

@[grind ←]
theorem openText (h : b.IsProper) (ht : Plain t.attributes) (reading : ReadingMode) :
    (b.openText t reading).IsProper :=
  (h.openTag ht).readText reading

end IsProper

end PageLogic.Html.Builder
