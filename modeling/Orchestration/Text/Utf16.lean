/-!
# Orchestration.Text.Utf16

UTF-16 in both byte orders.

* `decode` — the text of the bytes, or the first place where they are ill-formed: a surrogate
  without its partner, or an odd byte at the end.
* `encode` — the bytes of a text.
-/

namespace Orchestration.Text.Utf16

/-- Which byte of a code unit comes first. -/
inductive ByteOrder where
  | little
  | big
  deriving DecidableEq

def ByteOrder.unit : ByteOrder → UInt8 → UInt8 → Nat
  | .little, a, b => a.toNat + b.toNat * 256
  | .big, a, b => a.toNat * 256 + b.toNat

/-- The two bytes of a code unit. -/
def ByteOrder.bytes : ByteOrder → Nat → List UInt8
  | .little, u => [UInt8.ofNat (u % 256), UInt8.ofNat (u / 256)]
  | .big, u => [UInt8.ofNat (u / 256), UInt8.ofNat (u % 256)]

def ByteOrder.label : ByteOrder → String
  | .little => "utf-16-le"
  | .big => "utf-16-be"

/-- What is wrong with ill-formed bytes. -/
inductive Defect where
  /-- A single byte is left at the end. -/
  | oddByte (b : UInt8)
  /-- The text ends after the first half of a pair. -/
  | unfinished (length : Nat)
  /-- The first half of a pair is followed by something else. -/
  | loneHigh
  /-- The second half of a pair comes first. -/
  | loneLow
  deriving DecidableEq

/-- The first defect of the bytes and its position. -/
structure Fault where
  order : ByteOrder
  position : Nat
  defect : Defect
  deriving DecidableEq

/-- The bytes of a defect, by position. -/
def span (first length : Nat) : String :=
  s!"bytes in position {first}-{first + length - 1}"

def hexByte (b : UInt8) : String :=
  "0x" ++ String.ofList [Nat.digitChar (b.toNat / 16), Nat.digitChar (b.toNat % 16)]

def Fault.message (f : Fault) : String :=
  let start := s!"'{f.order.label}' codec can't decode "
  start ++
    match f.defect with
    | .oddByte b => s!"byte {hexByte b} in position {f.position}: truncated data"
    | .unfinished n => span f.position n ++ ": unexpected end of data"
    | .loneHigh => span f.position 2 ++ ": illegal UTF-16 surrogate"
    | .loneLow => span f.position 2 ++ ": illegal encoding"

/-- The first half of a surrogate pair. -/
def isHigh (u : Nat) : Bool := 0xD800 ≤ u && u ≤ 0xDBFF

/-- The second half of a surrogate pair. -/
def isLow (u : Nat) : Bool := 0xDC00 ≤ u && u ≤ 0xDFFF

def pair (high low : Nat) : Char :=
  Char.ofNat (0x10000 + (high - 0xD800) * 0x400 + (low - 0xDC00))

/-- The text of the bytes, of which the first stands at `position`. -/
def decode (order : ByteOrder) (position : Nat) : List UInt8 → Except Fault (List Char)
  | [] => .ok []
  | [b] => .error ⟨order, position, .oddByte b⟩
  | a :: b :: rest =>
    let u := order.unit a b
    if isHigh u then
      match rest with
      | [] => .error ⟨order, position, .unfinished 2⟩
      | [_] => .error ⟨order, position, .unfinished 3⟩
      | c :: d :: rest =>
        let v := order.unit c d
        if isLow v then (decode order (position + 4) rest).map (pair u v :: ·)
        else .error ⟨order, position, .loneHigh⟩
    else if isLow u then .error ⟨order, position, .loneLow⟩
    else (decode order (position + 2) rest).map (Char.ofNat u :: ·)

def unitsOf (c : Char) : List Nat :=
  let n := c.toNat
  if n < 0x10000 then [n]
  else [0xD800 + (n - 0x10000) / 0x400, 0xDC00 + (n - 0x10000) % 0x400]

def encode (order : ByteOrder) (text : List Char) : List UInt8 :=
  (text.flatMap unitsOf).flatMap order.bytes

end Orchestration.Text.Utf16
