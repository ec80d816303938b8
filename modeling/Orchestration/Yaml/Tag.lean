import Orchestration.Yaml.Moment

/-!
# Orchestration.Yaml.Tag

What a part of a document is.

* `Tag`         — the kinds of parts.
* `Tag.ofName`  — the tag of a full name.
* `Tag.ofPlain` — the tag of a scalar without one: the form of its text decides.
-/

namespace Orchestration.Yaml

/-- The kinds of parts that a document may have. -/
inductive Tag where
  | null
  | bool
  | int
  | real
  | binary
  | date
  | str
  | seq
  | orderedPairs
  | pairs
  | map
  | set
  /-- A key whose value is merged into the mapping. -/
  | merge
  /-- A key under which a mapping holds what it stands for. -/
  | equals
  /-- Anything else; no value belongs to it. -/
  | foreign
  deriving DecidableEq

namespace Tag

/-- The beginning of the names that belong to the format. -/
def coreLead : String := "tag:yaml.org,2002:"

/-- The names that belong to the format. -/
def names : List (String × Tag) :=
  [("null", .null), ("bool", .bool), ("int", .int), ("float", .real), ("binary", .binary),
    ("timestamp", .date), ("str", .str), ("seq", .seq), ("omap", .orderedPairs), ("pairs", .pairs),
    ("map", .map), ("set", .set), ("merge", .merge), ("value", .equals)]

def ofName (name : String) : Tag :=
  ((names.find? fun (n, _) => coreLead ++ n = name).map Prod.snd).getD .foreign

/-- The words for true and for false. -/
def truthWords : List String :=
  ["yes", "Yes", "YES", "no", "No", "NO", "true", "True", "TRUE", "false", "False", "FALSE", "on",
    "On", "ON", "off", "Off", "OFF"]

def nullWords : List String := ["", "~", "null", "Null", "NULL"]

/-- Whether a text consists of allowed characters and underscores, and is not empty. -/
def consists (allowed : Char → Bool) (s : List Char) : Bool :=
  !s.isEmpty && s.all fun c => c == '_' || allowed c

def cutColons (current : List Char) : List Char → List (List Char)
  | [] => [current.reverse]
  | ':' :: rest => current.reverse :: cutColons [] rest
  | c :: rest => cutColons (c :: current) rest

def isSixtieth : List Char → Bool
  | [a] => a.isDigit
  | [a, b] => '0' ≤ a && a ≤ '5' && b.isDigit
  | _ => false

/-- Whether a text is a first number and places of base sixty after it. -/
def isSexagesimal (first : List Char → Bool) (s : List Char) : Bool :=
  match cutColons [] s with
  | a :: b :: more => first a && (b :: more).all isSixtieth
  | _ => false

/-- A digit with digits and underscores after it. -/
def isDigits : List Char → Bool
  | c :: rest => c.isDigit && rest.all fun c => c.isDigit || c == '_'
  | [] => false

/-- Such a number without a leading zero. -/
def isDecimal (s : List Char) : Bool := isDigits s && s.head? != some '0'

/-- Whether a text without sign is a whole number. -/
def isWhole : List Char → Bool
  | '0' :: 'b' :: s => consists (fun c => c == '0' || c == '1') s
  | '0' :: 'x' :: s => consists (fun c => c.isDigit || ('a' ≤ c && c ≤ 'f') || ('A' ≤ c && c ≤ 'F')) s
  | ['0'] => true
  | '0' :: s => consists (fun c => '0' ≤ c && c ≤ '7') s
  | s => isDecimal s || isSexagesimal isDecimal s

/-- An exponent with its sign, or nothing. -/
def isExponent : List Char → Bool
  | [] => true
  | e :: sign :: digits =>
    (e == 'e' || e == 'E') && (sign == '+' || sign == '-') && !digits.isEmpty &&
      digits.all Char.isDigit
  | _ => false

/-- Whether a text is a number with a point. One that begins with its point has no sign, except
before the word for infinity. -/
def isReal (s : List Char) : Bool :=
  let (_, body) := Text.Numeral.cutSign s
  let bare := body.length == s.length
  let before := body.takeWhile (· ≠ '.')
  match body.dropWhile (· ≠ '.') with
  | [] => false
  | _ :: after =>
    let fraction := after.takeWhile fun c => c.isDigit || c == '_'
    let rest := after.dropWhile fun c => c.isDigit || c == '_'
    if before.isEmpty then
      ["inf", "Inf", "INF"].contains (String.ofList after) ||
        (bare && ["nan", "NaN", "NAN"].contains (String.ofList after)) ||
        (bare && isDigits fraction && isExponent rest)
    else
      (isDigits before && isExponent rest) || (rest.isEmpty && isSexagesimal isDigits before)

/-- Whether a text is a date. Without a time of day month and day have two digits. -/
def isDate (s : List Char) : Bool :=
  (Moment.ofText? s).any fun m => m.clock.isSome || s.length == 10

/-- The text without a line feed at its end, unless it is nothing else. -/
def dropLineEnd (s : List Char) : List Char :=
  if 1 < s.length && s.getLast? == some '\n' then s.dropLast else s

/-- The tag of a scalar without one. -/
def ofPlain (text : String) : Tag :=
  let s := dropLineEnd text.toList
  let word := String.ofList s
  let (_, unsigned) := Text.Numeral.cutSign s
  if truthWords.contains word then .bool
  else if isReal s then .real
  else if isWhole unsigned then .int
  else if word = "<<" then .merge
  else if nullWords.contains word then .null
  else if isDate s then .date
  else if word = "=" then .equals
  else if ["!", "&", "*"].contains word then .foreign
  else .str

end Tag

end Orchestration.Yaml
