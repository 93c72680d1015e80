import PageLogic.Html.Insertion
/-!
From an HTML source to a document. Every source has one.
-/
namespace PageLogic.Html

/-- Public identifiers of document types that ask for the rules of old browsers. -/
def legacyPublicIds : List String := [
  "-//w3o//dtd w3 html strict 3.0//en//", "-/w3c/dtd html 4.0 transitional/en", "html"]

/-- Beginnings of such identifiers. -/
def legacyPublicStarts : List String := [
  "+//silmaril//dtd html pro v0r11 19970101//",
  "-//as//dtd html 3.0 aswedit + extensions//",
  "-//advasoft ltd//dtd html 3.0 aswedit + extensions//",
  "-//ietf//dtd html 2.0 level 1//",
  "-//ietf//dtd html 2.0 level 2//",
  "-//ietf//dtd html 2.0 strict level 1//",
  "-//ietf//dtd html 2.0 strict level 2//",
  "-//ietf//dtd html 2.0 strict//",
  "-//ietf//dtd html 2.0//",
  "-//ietf//dtd html 2.1e//",
  "-//ietf//dtd html 3.0//",
  "-//ietf//dtd html 3.2 final//",
  "-//ietf//dtd html 3.2//",
  "-//ietf//dtd html 3//",
  "-//ietf//dtd html level 0//",
  "-//ietf//dtd html level 1//",
  "-//ietf//dtd html level 2//",
  "-//ietf//dtd html level 3//",
  "-//ietf//dtd html strict level 0//",
  "-//ietf//dtd html strict level 1//",
  "-//ietf//dtd html strict level 2//",
  "-//ietf//dtd html strict level 3//",
  "-//ietf//dtd html strict//",
  "-//ietf//dtd html//",
  "-//metrius//dtd metrius presentational//",
  "-//microsoft//dtd internet explorer 2.0 html strict//",
  "-//microsoft//dtd internet explorer 2.0 html//",
  "-//microsoft//dtd internet explorer 2.0 tables//",
  "-//microsoft//dtd internet explorer 3.0 html strict//",
  "-//microsoft//dtd internet explorer 3.0 html//",
  "-//microsoft//dtd internet explorer 3.0 tables//",
  "-//netscape comm. corp.//dtd html//",
  "-//netscape comm. corp.//dtd strict html//",
  "-//o'reilly and associates//dtd html 2.0//",
  "-//o'reilly and associates//dtd html extended 1.0//",
  "-//o'reilly and associates//dtd html extended relaxed 1.0//",
  "-//sq//dtd html 2.0 hotmetal + extensions//",
  "-//softquad software//dtd hotmetal pro 6.0::19990601::extensions to html 4.0//",
  "-//softquad//dtd hotmetal pro 4.0::19971010::extensions to html 4.0//",
  "-//spyglass//dtd html 2.0 extended//",
  "-//sun microsystems corp.//dtd hotjava html//",
  "-//sun microsystems corp.//dtd hotjava strict html//",
  "-//w3c//dtd html 3 1995-03-24//",
  "-//w3c//dtd html 3.2 draft//",
  "-//w3c//dtd html 3.2 final//",
  "-//w3c//dtd html 3.2//",
  "-//w3c//dtd html 3.2s draft//",
  "-//w3c//dtd html 4.0 frameset//",
  "-//w3c//dtd html 4.0 transitional//",
  "-//w3c//dtd html experimental 19960712//",
  "-//w3c//dtd html experimental 970421//",
  "-//w3c//dtd w3 html//",
  "-//w3o//dtd w3 html 3.0//",
  "-//webtechs//dtd mozilla html 2.0//",
  "-//webtechs//dtd mozilla html//"]

/-- Beginnings of identifiers that do so only without a system identifier. -/
def legacyAloneStarts : List String := [
  "-//w3c//dtd html 4.01 frameset//", "-//w3c//dtd html 4.01 transitional//"]

/-- The system identifier that asks for the rules of old browsers. -/
def legacySystemId : String :=
  "/".intercalate
    ["http:", "", "www.ibm.com", "data", "dtd", "v11", "ibmxhtml1-transitional.dtd"]

/-- Whether a document type asks for the rules of old browsers. -/
def Doctype.isLegacy (d : Doctype) : Bool :=
  let startsOne (starts : List String) (id : Option String) : Bool :=
    id.any fun id => starts.any fun start =>
      (Text.after? start.toList (id.toList.map Char.toLower)).isSome
  let isOne (ids : List String) (id : Option String) : Bool :=
    id.any fun id => ids.contains (.ofList (id.toList.map Char.toLower))
  d.broken || d.name != some "html" || isOne legacyPublicIds d.publicId ||
    isOne [legacySystemId] d.systemId || startsOne legacyPublicStarts d.publicId ||
    (d.systemId.isNone && startsOne legacyAloneStarts d.publicId)

namespace Builder

/-- Takes in one token. -/
def take (b : Builder) (token : Token) : Builder :=
  let token := if b.skipLineFeed then withoutLineFeed token else token
  let b := { b with skipLineFeed := false }
  let b :=
    match token with
    | .startTag _ | .endTag _ => { b with reading := .markup }
    | _ => b
  match token with
  | .doctype d => b.doctype d.isLegacy
  | .space "" => b
  | token => b.rounds (4 * b.stack.length + 64) token

/-- Takes in a source. Every round reads at least one character. -/
def takeAll : (rounds : Nat) → Builder → List Char → Builder
  | 0, b, _ => b
  | _, b, [] => b
  | rounds + 1, b, cs =>
    let (tokens, rest) := b.reading.next b.allowsCharacterData cs
    takeAll rounds (tokens.foldl take b) rest

end Builder

/-- The document of a source. -/
def Document.parse (source : String) : Document :=
  let cs := normalize source.toList
  ((Builder.start.takeAll (cs.length + 1) cs).take .eof).arena.toDocument

end PageLogic.Html
