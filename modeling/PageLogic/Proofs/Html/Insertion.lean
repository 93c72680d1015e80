import PageLogic.Html.Parse
import PageLogic.Proofs.Html.Building
/-!
The rules by which tokens grow the tree keep the elements as elements are, whatever the mode; so do all
rounds over a source, and every element of a parsed document carries attributes as elements do.

A rule is a choice among moves of the builder. That each move keeps a proper state proper is a lemma; these
are given to `grind`, which follows them along the branches of a rule.
-/
namespace PageLogic.Html

open Builder

/-- Whether the state that a rule leads to is proper. -/
def Step.IsProper (s : Step) : Prop :=
  s.1.IsProper

namespace Builder

theorem stepIsProper_ite {c : Prop} [Decidable c] {s s' : Step} (h : Step.IsProper s)
    (h' : Step.IsProper s') : Step.IsProper (if c then s else s') := by
  split
  · exact h
  · exact h'

namespace IsProper

variable {b : Builder} {t : Tag}

/-- Whatever else a rule sets, the tags to be opened again stay. -/
@[grind ←]
theorem keeping (h : b.IsProper) {arena : Arena} (hArena : arena.IsProper) {stack mode returnMode
    templateModes head form framesetAllowed fosterParenting legacy skipLineFeed pendingText reading} :
    IsProper ⟨arena, stack, b.formatting, mode, returnMode, templateModes, head, form,
      framesetAllowed, fosterParenting, legacy, skipLineFeed, pendingText, reading⟩ :=
  ⟨hArena, h.formatting⟩

@[grind ←]
theorem done (h : b.IsProper) : Step.IsProper b.done :=
  h

@[grind ←]
theorem withMode (h : b.IsProper) (mode : Mode) : (b.withMode mode).IsProper :=
  h.keeping h.arena

@[grind ←]
theorem again (h : b.IsProper) (mode : Mode) : Step.IsProper (b.again mode) :=
  h.withMode mode

/-! ### In front of the body -/

@[grind ←]
theorem rootTag (h : b.IsProper) (ht : Plain t.attributes) : (b.rootTag t).IsProper :=
  isProper_ite h (h.withArena (h.arena.addMissing _ ht))

@[grind ←]
theorem closeTemplate (h : b.IsProper) : b.closeTemplate.IsProper := by
  grind [Builder.closeTemplate]

@[grind ←]
theorem openTemplate (h : b.IsProper) (ht : Plain t.attributes) : (b.openTemplate t).IsProper :=
  (h.openTag ht).pushMarker.keeping (h.openTag ht).arena

@[grind ←]
theorem headStart (h : b.IsProper) (ht : Plain t.attributes) : (b.headStart t).IsProper := by
  grind [Builder.headStart]

variable {token : Token}

theorem initial (h : b.IsProper) : Step.IsProper (b.initial token) := by
  cases token <;> grind [Builder.initial]

theorem beforeHtml (h : b.IsProper) (ht : token.IsPlain) : Step.IsProper (b.beforeHtml token) := by
  cases token <;> grind [Builder.beforeHtml, plain_nil]

theorem beforeHead (h : b.IsProper) (ht : token.IsPlain) : Step.IsProper (b.beforeHead token) := by
  cases token <;> grind [Builder.beforeHead, plain_nil]

theorem inHead (h : b.IsProper) (ht : token.IsPlain) : Step.IsProper (b.inHead token) := by
  cases token <;> grind [Builder.inHead]

theorem afterHead (h : b.IsProper) (ht : token.IsPlain) : Step.IsProper (b.afterHead token) := by
  cases token <;> grind [Builder.afterHead]

/-! ### Foreign elements -/

theorem leaveForeign (h : b.IsProper) : Step.IsProper b.leaveForeign := by
  grind [Builder.leaveForeign, Step.IsProper]

theorem foreignStart (h : b.IsProper) (ht : Plain t.attributes) : (b.foreignStart t).IsProper := by
  unfold Builder.foreignStart
  split
  · exact h
  · dsimp only
    split
    · exact h.openForeign _ ht
    · exact h.openForeign _ ht

/-! ### The body -/

@[grind ←]
theorem noFrameset (h : b.IsProper) : b.noFrameset.IsProper :=
  h.keeping h.arena

@[grind ←]
theorem bodyText (h : b.IsProper) (s : String) : (b.bodyText s).IsProper :=
  h.reopenFormatting.noFrameset.insertText s

@[grind ←]
theorem bodySpace (h : b.IsProper) (s : String) : (b.bodySpace s).IsProper :=
  h.reopenFormatting.insertText s

theorem templateEnd (h : b.IsProper) : Step.IsProper b.templateEnd := by
  grind [Builder.templateEnd]

@[grind ←]
theorem bodyEnd (h : b.IsProper) : Step.IsProper b.bodyEnd :=
  stepIsProper_ite h h.templateEnd

@[grind ←]
theorem closeItem (h : b.IsProper) (names : List String) : (b.closeItem names).IsProper := by
  unfold Builder.closeItem
  induction b.stack with
  | nil => exact h
  | cons n rest ih => grind [closeItem.go]

@[grind ←]
theorem closeLink (h : b.IsProper) : b.closeLink.IsProper := by
  unfold Builder.closeLink
  split
  · exact ((h.closeFormatting "a").forgetFormatting _).removeFromStack _
  · exact h

@[grind ←]
theorem bodyStart (h : b.IsProper) (ht : Plain t.attributes) : (b.bodyStart t).IsProper := by
  unfold Builder.bodyStart
  -- The rule has a case for every kind of element, too many to be split at once.
  repeat' with_reducible refine isProper_ite ?_ ?_
  all_goals grind

@[grind ←]
theorem formEnd (h : b.IsProper) : b.formEnd.IsProper := by
  unfold Builder.formEnd
  grind

theorem bodyEndTag (h : b.IsProper) : Step.IsProper (b.bodyEndTag t) := by
  unfold Builder.bodyEndTag
  repeat' with_reducible refine stepIsProper_ite ?_ ?_
  all_goals grind [plain_nil]

@[grind ←]
theorem inBody (h : b.IsProper) (ht : token.IsPlain) : Step.IsProper (b.inBody token) := by
  cases token <;> grind [Builder.inBody, bodyEndTag]

theorem inText (h : b.IsProper) : Step.IsProper (b.inText token) := by
  cases token <;> grind [Builder.inText]

@[grind ←]
theorem templateAs (h : b.IsProper) (mode : Mode) : Step.IsProper (b.templateAs mode) :=
  (h.keeping h.arena).again mode

theorem inTemplate (h : b.IsProper) (ht : token.IsPlain) : Step.IsProper (b.inTemplate token) := by
  cases token <;> grind [Builder.inTemplate, templateEnd]

/-! ### Tables -/

@[grind ←]
theorem fostered (h : b.IsProper) (ht : token.IsPlain) : Step.IsProper (b.fostered token) := by
  have hRead : Step.IsProper (Builder.inBody { b with fosterParenting := true } token) :=
    (h.keeping h.arena).inBody ht
  exact IsProper.keeping hRead (IsProper.arena hRead)

@[grind ←]
theorem tableText (h : b.IsProper) (ht : token.IsPlain) : Step.IsProper (b.tableText token) :=
  stepIsProper_ite (h.keeping h.arena) (h.fostered ht)

@[grind ←]
theorem inTable (h : b.IsProper) (ht : token.IsPlain) : Step.IsProper (b.inTable token) := by
  cases token <;> grind [Builder.inTable]

theorem flushTableText (h : b.IsProper) : b.flushTableText.IsProper := by
  unfold Builder.flushTableText
  refine List.foldlRecOn _ _ (h.keeping h.arena) fun b' h' s _ => isProper_ite (h'.insertText s) ?_
  exact h'.fostered (by split <;> trivial)

theorem inTableText (h : b.IsProper) : Step.IsProper (b.inTableText token) := by
  cases token <;> grind [Builder.inTableText, flushTableText]

theorem inCaption (h : b.IsProper) (ht : token.IsPlain) : Step.IsProper (b.inCaption token) := by
  cases token <;> grind [Builder.inCaption]

theorem inColumnGroup (h : b.IsProper) (ht : token.IsPlain) :
    Step.IsProper (b.inColumnGroup token) := by
  cases token <;> grind [Builder.inColumnGroup]

theorem inTableBody (h : b.IsProper) (ht : token.IsPlain) : Step.IsProper (b.inTableBody token) := by
  cases token <;> grind [Builder.inTableBody]

theorem inRow (h : b.IsProper) (ht : token.IsPlain) : Step.IsProper (b.inRow token) := by
  cases token <;> grind [Builder.inRow]

@[grind ←]
theorem closeCell (h : b.IsProper) : b.closeCell.IsProper :=
  (h.closeImplied.popThrough _).clearToMarker

theorem inCell (h : b.IsProper) (ht : token.IsPlain) : Step.IsProper (b.inCell token) := by
  cases token <;> grind [Builder.inCell]

/-! ### Selections and framesets -/

@[grind ←]
theorem inSelect (h : b.IsProper) (ht : token.IsPlain) : Step.IsProper (b.inSelect token) := by
  cases token <;> grind [Builder.inSelect]

theorem inSelectInTable (h : b.IsProper) (ht : token.IsPlain) :
    Step.IsProper (b.inSelectInTable token) := by
  cases token <;> grind [Builder.inSelectInTable]

theorem afterBody (h : b.IsProper) (ht : token.IsPlain) : Step.IsProper (b.afterBody token) := by
  cases token <;> grind [Builder.afterBody]

theorem inFrameset (h : b.IsProper) (ht : token.IsPlain) : Step.IsProper (b.inFrameset token) := by
  cases token <;> grind [Builder.inFrameset]

theorem afterFrameset (h : b.IsProper) (ht : token.IsPlain) :
    Step.IsProper (b.afterFrameset token) := by
  cases token <;> grind [Builder.afterFrameset]

theorem afterAfterBody (h : b.IsProper) (ht : token.IsPlain) :
    Step.IsProper (b.afterAfterBody token) := by
  cases token <;> grind [Builder.afterAfterBody]

theorem afterAfterFrameset (h : b.IsProper) (ht : token.IsPlain) :
    Step.IsProper (b.afterAfterFrameset token) := by
  cases token <;> grind [Builder.afterAfterFrameset]

/-! ### Whole sources -/

/-- The rules of a mode keep the elements as elements are. -/
theorem step (h : b.IsProper) (ht : token.IsPlain) (mode : Mode) :
    Step.IsProper (b.step mode token) := by
  cases mode with
  | initial => exact h.initial
  | beforeHtml => exact h.beforeHtml ht
  | beforeHead => exact h.beforeHead ht
  | inHead => exact h.inHead ht
  | afterHead => exact h.afterHead ht
  | inBody => exact h.inBody ht
  | text => exact h.inText
  | inTable => exact h.inTable ht
  | inTableText => exact h.inTableText
  | inCaption => exact h.inCaption ht
  | inColumnGroup => exact h.inColumnGroup ht
  | inTableBody => exact h.inTableBody ht
  | inRow => exact h.inRow ht
  | inCell => exact h.inCell ht
  | inSelect => exact h.inSelect ht
  | inSelectInTable => exact h.inSelectInTable ht
  | inTemplate => exact h.inTemplate ht
  | afterBody => exact h.afterBody ht
  | inFrameset => exact h.inFrameset ht
  | afterFrameset => exact h.afterFrameset ht
  | afterAfterBody => exact h.afterAfterBody ht
  | afterAfterFrameset => exact h.afterAfterFrameset ht

theorem foreignEnd (h : b.IsProper) : Step.IsProper (b.foreignEnd t) := by
  have hGo (first : Bool) (stack : List Nat) : Step.IsProper (foreignEnd.go b t first stack) := by
    fun_induction foreignEnd.go b t first stack with
    | case1 => exact h
    | case2 => exact h
    | case3 first n rest => exact h.step (isPlain_endTag t) b.mode
    | case4 => exact h.withStack _
    | case5 first n rest _ _ _ ih => exact ih
  exact hGo true b.stack

theorem inForeign (h : b.IsProper) (ht : token.IsPlain) : Step.IsProper (b.inForeign token) := by
  cases token <;> grind [Builder.inForeign, foreignEnd, foreignStart, leaveForeign]

theorem rounds (h : b.IsProper) (ht : token.IsPlain) (rounds : Nat) :
    (b.rounds rounds token).IsProper := by
  induction rounds generalizing b with
  | zero => exact h
  | succ n ih =>
      have hStep : Step.IsProper
          (if b.readsForeign token then b.inForeign token else b.step b.mode token) :=
        stepIsProper_ite (h.inForeign ht) (h.step ht b.mode)
      exact isProper_ite (ih hStep) hStep

theorem doctype (h : b.IsProper) (legacy : Bool) : (b.doctype legacy).IsProper := by
  grind [Builder.doctype]

theorem take (h : b.IsProper) (ht : token.IsPlain) : (b.take token).IsProper := by
  unfold Builder.take
  dsimp only
  have hToken : (if b.skipLineFeed then withoutLineFeed token else token).IsPlain := by
    split
    · cases token <;> exact ht
    · exact ht
  generalize (if b.skipLineFeed then withoutLineFeed token else token) = token at hToken ⊢
  cases token with
  | doctype d => exact doctype (h.keeping h.arena) _
  | space s =>
      dsimp only
      split
      · rename_i hDoctype
        cases hDoctype
      · exact h.keeping h.arena
      · exact rounds (h.keeping h.arena) hToken _
  | startTag t => exact rounds (h.keeping h.arena) hToken _
  | endTag t => exact rounds (h.keeping h.arena) hToken _
  | comment c => exact rounds (h.keeping h.arena) hToken _
  | text s => exact rounds (h.keeping h.arena) hToken _
  | null => exact rounds (h.keeping h.arena) hToken _
  | eof => exact rounds (h.keeping h.arena) hToken _

theorem takeAll (h : b.IsProper) (rounds : Nat) (cs : List Char) : (b.takeAll rounds cs).IsProper := by
  induction rounds generalizing b cs with
  | zero => exact h
  | succ rounds ih =>
      cases cs with
      | nil => exact h
      | cons c rest =>
          have hPlain := b.reading.isPlain_next b.allowsCharacterData (c :: rest)
          exact ih (List.foldlRecOn _ _ h fun b' h' token hToken => h'.take (hPlain token hToken)) _

end IsProper

end Builder

/-- Every element of a parsed document carries attributes as elements do. -/
theorem Document.proper_of_mem_positions {source : String} {q : Position}
    (hq : q ∈ (Document.parse source).positions) : Proper q.element.space q.element.attributes :=
  ((isProper_start.takeAll _ _).take isPlain_eof).arena.of_mem_toDocument hq

end PageLogic.Html
