import Orchestration.Binary64
import Orchestration.Text.Numeral
import Orchestration.Text.Wide

/-!
# Orchestration.Yaml.Value

The data that a YAML document holds.
-/

namespace Orchestration.Yaml

/-- A value. Dates are kept as they are shown. -/
inductive Value where
  | null
  | bool (b : Bool)
  | int (n : Int)
  | real (x : Binary64)
  | date (shown : String)
  | bytes (data : List UInt8)
  | str (s : Text.Wide)
  | list (items : List Value)
  /-- A list of pairs. -/
  | pairs (entries : List (Value × Value))
  | set (members : List Value)
  | mapping (entries : List (Value × Value))
  deriving Inhabited

namespace Value

def hexDigit (n : Nat) : Char := if n < 10 then Char.ofNat (48 + n) else Char.ofNat (87 + n)

/-- How a byte is shown between quotation marks. -/
def byteText (quote : Char) (b : UInt8) : List Char :=
  let n := b.toNat
  let c := Char.ofNat n
  if c = quote ∨ c = '\x5c' then ['\x5c', c]
  else if c = '\t' then ['\x5c', 't']
  else if c = '\n' then ['\x5c', 'n']
  else if c = '\r' then ['\x5c', 'r']
  else if n < 0x20 ∨ 0x7F ≤ n then ['\x5c', 'x', hexDigit (n / 16), hexDigit (n % 16)]
  else [c]

/-- How bytes are shown. Double quotation marks are used only around single ones. -/
def bytesText (data : List UInt8) : String :=
  let holds := fun (c : Char) => data.any fun b => b.toNat == c.toNat
  let quote := if holds '\x27' && !holds '\x22' then '\x22' else '\x27'
  String.ofList ('b' :: quote :: data.flatMap (byteText quote) ++ [quote])

/-- How a key is shown. Whole numbers with too many digits are not. -/
def display? : Value → Option Text.Wide
  | .null => some "None"
  | .bool b => some (if b then "True" else "False")
  | .int n =>
    let shown := toString n
    if Text.Numeral.longest < (toString n.natAbs).length then none else some shown
  | .real x => some x.text
  | .date shown => some shown
  | .bytes data => some (bytesText data)
  | .str s => some s
  | _ => some ""

def sameKey : Value → Value → Bool
  | .null, .null => true
  | .bool a, .bool b => a == b
  | .int a, .int b => a == b
  | .real a, .real b => a == b
  | .date a, .date b => a == b
  | .bytes a, .bytes b => a == b
  | .str a, .str b => a == b
  | _, _ => false

/-- Enters a pair into a mapping; a key that is there keeps its place and takes the new value. -/
def enter (key value : Value) : List (Value × Value) → List (Value × Value)
  | [] => [(key, value)]
  | (k, v) :: rest =>
    if sameKey k key then (k, value) :: rest else (k, v) :: enter key value rest

/-- Adds a member to a set; one that is there keeps its place. -/
def join (member : Value) (members : List Value) : List Value :=
  if members.any (sameKey · member) then members else members ++ [member]

/-- Whether a value stands for nothing at all. -/
def isNothing : Value → Bool
  | .null => true
  | .bool b => !b
  | .int n => n == 0
  | .real x => x.isZero
  | .date _ => false
  | .bytes data => data.isEmpty
  | .str s => s == ""
  | .list items => items.isEmpty
  | .pairs entries => entries.isEmpty
  | .set members => members.isEmpty
  | .mapping entries => entries.isEmpty

end Value

end Orchestration.Yaml
