import PageLogic.Text.Blank
import PageLogic.Text.Number
import PageLogic.Word
/-!
How words on a command line are told apart.

A level of the command line knows switches, settings that take a value, commands that begin the next
level, and how many words it takes besides. Every word that a level does not know is a mistake, and
so is a switch or setting that is given twice.
-/
namespace PageLogic.Command

/-- An option, by its long name and, perhaps, by a letter. -/
structure Flag where
  name : String
  letter : Option Char
  deriving DecidableEq, Repr

/-- Which values a setting takes. -/
inductive Kind where
  | any
  | nonempty
  /-- A number of 64 bits without minus sign. -/
  | count
  deriving DecidableEq, Repr

def Kind.accepts (k : Kind) (value : String) : Bool :=
  match k with
  | .any => true
  | .nonempty => !value.isEmpty
  | .count => (Text.natBelow? Word.limit value.toList).isSome

/-- A setting and the values that it takes. -/
structure Setting extends Flag where
  kind : Kind
  deriving DecidableEq, Repr

/-- What one level of the command line takes. -/
structure Level where
  switches : List Flag
  settings : List Setting
  commands : List String
  /-- How many words it takes that are neither options nor commands. -/
  words : Nat
  deriving Repr

/-- What a level was given. -/
structure Given where
  switches : List String
  settings : List (String × String)
  words : List String
  deriving DecidableEq, Repr

namespace Given

def nothing : Given := ⟨[], [], []⟩

/-- Adds a switch, unless it is there. -/
def switch (g : Given) (name : String) : Option Given :=
  if g.switches.contains name then none else some { g with switches := name :: g.switches }

/-- Adds a setting, unless it is there or the value is none that it takes. -/
def setting (g : Given) (s : Setting) (value : String) : Option Given :=
  if (g.settings.lookup s.name).isSome || !s.kind.accepts value then none
  else some { g with settings := (s.name, value) :: g.settings }

def word (g : Given) (w : String) : Given :=
  { g with words := g.words ++ [w] }

end Given

/-- How a level ends. -/
inductive Ending where
  /-- All words were read. -/
  | finished (g : Given)
  /-- A command begins the next level with the rest of the words. -/
  | command (g : Given) (name : String) (rest : List String)
  /-- A switch that is answered at once. -/
  | answered (switch : String)
  /-- A mistake. -/
  | refused
  deriving Repr

/-- Switches that are answered as soon as they are read. -/
def immediate : List String := ["help", "version"]

namespace Level

def switch? (l : Level) (name : String) : Bool :=
  l.switches.any (·.name == name)

def setting? (l : Level) (name : String) : Option Setting :=
  l.settings.find? (·.name == name)

/-- What reading one word leads to. -/
inductive Step where
  | given (g : Given)
  /-- The next word is the value of this setting. -/
  | awaiting (g : Given) (setting : Setting)
  | answered (switch : String)
  | refused

/-- A switch by name. -/
def takeSwitch (g : Given) (name : String) : Step :=
  if immediate.contains name then .answered name
  else
    match g.switch name with
    | some g => .given g
    | none => .refused

/-- A value for a setting. -/
def takeValue (g : Given) (s : Setting) (value : String) : Step :=
  match g.setting s value with
  | some g => .given g
  | none => .refused

/-- A setting whose value is still to come. -/
def await (g : Given) (s : Setting) : Step :=
  if (g.settings.lookup s.name).isSome then .refused else .awaiting g s

/-- A word behind two hyphens. A value may follow behind an equals sign. -/
def long (l : Level) (g : Given) (cs : List Char) : Step :=
  match Text.cutAt (· == '=') cs with
  | some (name, value) =>
    match l.setting? (.ofList name) with
    | some s => takeValue g s (.ofList value)
    | none => .refused
  | none =>
    let name := String.ofList cs
    if l.switch? name then takeSwitch g name
    else
      match l.setting? name with
      | some s => await g s
      | none => .refused

/-- Letters behind one hyphen. The letter of a setting takes what follows it as its value. -/
def letters (l : Level) : Given → List Char → Step
  | g, [] => .given g
  | g, c :: rest =>
    match l.switches.find? (·.letter == some c), l.settings.find? (·.letter == some c) with
    | some o, _ =>
      match takeSwitch g o.name with
      | .given g => letters l g rest
      | step => step
    | none, some s =>
      match rest with
      | [] => await g s
      | '=' :: value => takeValue g s (.ofList value)
      | value => takeValue g s (.ofList value)
    | none, none => .refused

/-- Reads the words behind the one that ends all options. -/
def literal (l : Level) (g : Given) (words : List String) : Ending :=
  if g.words.length + words.length ≤ l.words then
    .finished { g with words := g.words ++ words }
  else .refused

/-- Reads the words of a level. `awaiting` is the setting whose value comes next. -/
def read (l : Level) : Given → (awaiting : Option Setting) → List String → Ending
  | g, none, [] => .finished g
  | _, some _, [] => .refused
  | g, awaiting, w :: rest =>
    if awaiting.isNone && l.commands.contains w then .command g w rest
    else
      match w.toList with
      | ['-', '-'] => if awaiting.isSome then .refused else l.literal g rest
      | '-' :: c :: cs =>
        if awaiting.isSome then .refused
        else
          let step := if c = '-' then l.long g cs else l.letters g (c :: cs)
          match step with
          | .given g => l.read g none rest
          | .awaiting g s => l.read g (some s) rest
          | .answered name => .answered name
          | .refused => .refused
      | _ =>
        match awaiting with
        | some s =>
          match takeValue g s w with
          | .given g => l.read g none rest
          | _ => .refused
        | none => if g.words.length < l.words then l.read (g.word w) none rest else .refused

end Level

end PageLogic.Command
