import Orchestration.Text.Layout
import Orchestration.Text.Search
import Orchestration.Xml.Reference

/-!
# Orchestration.Xml.Markup

A document as a list of markup items.

* `Markup`      — what stands between two tags, and the tags.
* `Markup.read` — cuts a document into its items; every line end is taken as a line feed, and the
  XML declaration is checked and dropped.
-/

namespace Orchestration.Xml

/-- A name as written; `scope` is the part before the colon, empty when there is none. -/
structure Tag where
  scope : String
  base : String
  deriving DecidableEq

/-- An attribute as written, its value normalized. -/
structure Setting where
  tag : Tag
  value : String

/-- One item of a document. -/
inductive Markup where
  /-- Characters between markup, references not yet replaced. -/
  | raw (text : List Char)
  /-- Characters taken as they are. -/
  | literal (text : List Char)
  /-- A comment or a processing instruction. -/
  | aside
  | opens (tag : Tag) (settings : List Setting)
  | closes (tag : Tag)
  /-- An element without content. -/
  | whole (tag : Tag) (settings : List Setting)

def skipSpace (s : List Char) : List Char := s.dropWhile isSpace

/-- The rest after `pattern`, when the text begins with it. -/
def after? (pattern : String) (s : List Char) : Option (List Char) :=
  if pattern.toList.isPrefixOf s then some (s.drop pattern.length) else none

/-- The text before the first `pattern` and the rest after it. -/
def cut (pattern : String) (s : List Char) : Option (List Char × List Char) :=
  (Text.splitBefore pattern.toList s).map fun (p, r) => (p, r.drop pattern.length)

/-- A qualified name: one simple name, or two joined by a colon. -/
def tag? (written : List Char) : Option Tag :=
  match cut ":" written with
  | none => if isSimpleName written then some ⟨"", String.ofList written⟩ else none
  | some (scope, base) =>
    if isSimpleName scope && isSimpleName base then
      some ⟨String.ofList scope, String.ofList base⟩
    else none

def readTag (s : List Char) : Option (Tag × List Char) :=
  let part := fun c => isNamePart c || c == ':'
  (tag? (s.takeWhile part)).map fun tag => (tag, s.dropWhile part)

/-- Reads a value between two equal quotation marks. -/
def readQuoted : List Char → Option (List Char × List Char)
  | [] => none
  | q :: rest => if q = '\x22' ∨ q = '\x27' then cut (String.ofList [q]) rest else none

/-- Reads `=` and a quoted value; white space may stand on either side. -/
def readAssigned (s : List Char) : Option (List Char × List Char) :=
  (after? "=" (skipSpace s)).bind fun rest => readQuoted (skipSpace rest)

/-- How a start tag ends. -/
inductive Ending where
  | content
  | empty

/-- Reads the attributes of a start tag up to its end. White space must stand before each. -/
def readSettings : Nat → List Char → Option (List Setting × Ending × List Char)
  | 0, _ => none
  | fuel + 1, s =>
    let rest := skipSpace s
    match after? ">" rest, after? "/>" rest with
    | some rest, _ => some ([], .content, rest)
    | none, some rest => some ([], .empty, rest)
    | none, none =>
      if !s.head?.any isSpace then none
      else do
        let (tag, rest) ← readTag rest
        let (raw, rest) ← readAssigned rest
        let value ← expandValue raw
        let (settings, ending, rest) ← readSettings fuel rest
        some (⟨tag, String.ofList value⟩ :: settings, ending, rest)

/-- Whether every character may stand in a document. -/
def allAllowed (s : List Char) : Bool := s.all fun c => isAllowed c.toNat

/-- Reads a comment after its opening mark. Two hyphens may stand only at its end. -/
def readComment (s : List Char) : Option (List Char) := do
  let (body, rest) ← cut "--" s
  if allAllowed body then after? ">" rest else none

/-- Whether a name is `xml` in any letter case. -/
def isReserved (name : List Char) : Bool := name.map Char.toLower == ['x', 'm', 'l']

/-- Reads a processing instruction after its opening mark. White space must separate the target
from what follows. -/
def readInstruction (s : List Char) : Option (List Char) := do
  let (body, rest) ← cut "?>" s
  let target := body.takeWhile isNamePart
  let data := body.dropWhile isNamePart
  if isSimpleName target && !isReserved target && allAllowed body &&
      (data.isEmpty || data.head?.any isSpace)
  then some rest else none

/-- Reads the item that begins with `<`; `s` is what follows that character. -/
def readTagged (fuel : Nat) (s : List Char) : Option (Markup × List Char) :=
  match after? "!--" s, after? "![CDATA[" s, after? "?" s, after? "/" s with
  | some rest, _, _, _ => (readComment rest).map (Markup.aside, ·)
  | _, some rest, _, _ => do
    let (body, rest) ← cut "]]>" rest
    if allAllowed body then some (.literal body, rest) else none
  | _, _, some rest, _ => (readInstruction rest).map (Markup.aside, ·)
  | _, _, _, some rest => do
    let (tag, rest) ← readTag rest
    let rest ← after? ">" (skipSpace rest)
    some (.closes tag, rest)
  | none, none, none, none => do
    let (tag, rest) ← readTag s
    let (settings, ending, rest) ← readSettings fuel rest
    match ending with
    | .content => some (.opens tag settings, rest)
    | .empty => some (.whole tag settings, rest)

/-- The items of a text. Each takes at least one character, so the length of the text is fuel
enough. -/
def readItems : Nat → List Char → Option (List Markup)
  | 0, _ => none
  | fuel + 1, s =>
    match s with
    | [] => some []
    | '<' :: rest => do
      let (item, rest) ← readTagged fuel rest
      let items ← readItems fuel rest
      some (item :: items)
    | c :: rest =>
      let text := c :: rest.takeWhile (· ≠ '<')
      if (cut "]]>" text).isSome then none
      else do
        let items ← readItems fuel (rest.dropWhile (· ≠ '<'))
        some (.raw text :: items)

/-- Reads a named part of the XML declaration, if it comes next. -/
def readPart (name : String) (s : List Char) : Option (Option (List Char) × List Char) :=
  match after? name (skipSpace s) with
  | none => some (none, s)
  | some rest =>
    if !s.head?.any isSpace then none
    else do
      let (value, rest) ← readAssigned rest
      some (some value, rest)

/-- Version numbers that are read: `1.` and any digits. -/
def isVersion : List Char → Bool
  | '1' :: '.' :: digits => digits.all Char.isDigit
  | _ => false

/-- The form of an encoding name; which encoding it names does not matter. -/
def isEncodingName : List Char → Bool
  | [] => false
  | c :: rest =>
    c.isAlpha && rest.all fun c => c.isAlphanum || c == '.' || c == '_' || c == '-'

/-- Whether the text between `<?xml` and `?>` is an XML declaration. -/
def isDeclaration (s : List Char) : Bool :=
  match (do
    let (version, s) ← readPart "version" s
    let (encoding, s) ← readPart "encoding" s
    let (standalone, s) ← readPart "standalone" s
    some (version, encoding, standalone, s)) with
  | some (some version, encoding, standalone, rest) =>
    isVersion version && encoding.all isEncodingName &&
      standalone.all (fun v => v == ['y', 'e', 's'] || v == ['n', 'o']) && (skipSpace rest).isEmpty
  | _ => false

/-- The document after its XML declaration, if it begins with one. -/
def skipDeclaration (s : List Char) : Option (List Char) :=
  match after? "<?xml" s with
  | none => some s
  | some rest =>
    if rest.head?.any isSpace then do
      let (body, rest) ← cut "?>" rest
      if isDeclaration body then some rest else none
    else some s

/-- The items of a document, or `none` when one of them is not well-formed. -/
def Markup.read (document : List Char) : Option (List Markup) := do
  let s ← skipDeclaration (Text.unifyLineEnds document)
  readItems (s.length + 1) s

end Orchestration.Xml
