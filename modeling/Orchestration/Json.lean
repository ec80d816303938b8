/-!
# Orchestration.Json

Structured data and its printed form.

* `Json`       — values; the fields of an object keep their order.
* `Json.print` — one field or item a line, two blanks a level, ASCII only.
-/

namespace Orchestration

/-- A value. `tenths n` is the number `n / 10`, printed with one decimal. -/
inductive Json where
  | null
  | bool (b : Bool)
  | int (n : Int)
  | tenths (n : Nat)
  | str (s : String)
  | arr (items : List Json)
  | obj (fields : List (String × Json))

namespace Json

def strings (xs : List String) : Json := .arr (xs.map .str)

def nat (n : Nat) : Json := .int n

/-- The number `n / 10` with one decimal. -/
def tenthsText (n : Nat) : String := toString (n / 10) ++ "." ++ toString (n % 10)

def hexDigit (n : Nat) : Char := if n < 10 then Char.ofNat (48 + n) else Char.ofNat (87 + n)

/-- A code unit written with its number. -/
def numbered (n : Nat) : List Char :=
  ['\\', 'u', hexDigit (n / 4096 % 16), hexDigit (n / 256 % 16), hexDigit (n / 16 % 16),
    hexDigit (n % 16)]

/-- A character inside quotation marks. Controls and everything outside ASCII are written as
numbers, beyond `U+FFFF` as a surrogate pair. -/
def escape (c : Char) : List Char :=
  let n := c.toNat
  if n = 0x22 then ['\\', c]
  else if n = 0x5C then ['\\', c]
  else if n = 0x0A then ['\\', 'n']
  else if n = 0x0D then ['\\', 'r']
  else if n = 0x09 then ['\\', 't']
  else if n = 0x08 then ['\\', 'b']
  else if n = 0x0C then ['\\', 'f']
  else if 0x20 ≤ n ∧ n < 0x7F then [c]
  else if n < 0x10000 then numbered n
  else
    numbered (0xD800 + (n - 0x10000) / 0x400) ++ numbered (0xDC00 + (n - 0x10000) % 0x400)

def quoted (s : String) : String := "\"" ++ String.ofList (s.toList.flatMap escape) ++ "\""

/-- A new line at the given level. -/
def newLine (level : Nat) : String := "\n" ++ String.ofList (List.replicate (2 * level) ' ')

mutual

/-- A value whose first line stands at `level`. -/
def printAt (level : Nat) : Json → String
  | .null => "null"
  | .bool b => if b then "true" else "false"
  | .int n => toString n
  | .tenths n => tenthsText n
  | .str s => quoted s
  | .arr [] => "[]"
  | .arr (item :: items) =>
    "[" ++ newLine (level + 1) ++ printAt (level + 1) item ++ printItems (level + 1) items ++
      newLine level ++ "]"
  | .obj [] => "\x7b\x7d"
  | .obj ((key, value) :: fields) =>
    "\x7b" ++ newLine (level + 1) ++ quoted key ++ ": " ++ printAt (level + 1) value ++
      printFields (level + 1) fields ++ newLine level ++ "\x7d"

def printItems (level : Nat) : List Json → String
  | [] => ""
  | item :: items => "," ++ newLine level ++ printAt level item ++ printItems level items

def printFields (level : Nat) : List (String × Json) → String
  | [] => ""
  | (key, value) :: fields =>
    "," ++ newLine level ++ quoted key ++ ": " ++ printAt level value ++ printFields level fields

end

def print (j : Json) : String := j.printAt 0

end Json

end Orchestration
