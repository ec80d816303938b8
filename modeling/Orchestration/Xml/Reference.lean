import Orchestration.Xml.Char

/-!
# Orchestration.Xml.Reference

References in character data and attribute values.

* The five names `amp`, `lt`, `gt`, `quot`, `apos` stand for their characters.
* `#65` and `#x41` stand for the character of that number, if a document may hold it.
* Every other reference is refused.
-/

namespace Orchestration.Xml

def hexValue? (c : Char) : Option Nat :=
  let n := c.toNat
  if 0x30 ≤ n ∧ n ≤ 0x39 then some (n - 0x30)
  else if 0x41 ≤ n ∧ n ≤ 0x46 then some (n - 0x37)
  else if 0x61 ≤ n ∧ n ≤ 0x66 then some (n - 0x57)
  else none

/-- The number that digits write in the given base; at least one digit is needed. -/
def number? (base : Nat) (digits : List Char) : Option Nat :=
  if digits.isEmpty then none
  else
    digits.foldlM (fun value c =>
      match hexValue? c with
      | some d => if d < base then some (value * base + d) else none
      | none => none) 0

/-- The character of a number, if a document may hold it. -/
def numbered? (n : Option Nat) : Option Char :=
  n.bind fun n => if isAllowed n then some (Char.ofNat n) else none

/-- The character that the text between `&` and `;` stands for. -/
def resolve? : List Char → Option Char
  | '#' :: 'x' :: digits => numbered? (number? 16 digits)
  | '#' :: digits => numbered? (number? 10 digits)
  | name =>
    if name = ['a', 'm', 'p'] then some '&'
    else if name = ['l', 't'] then some '<'
    else if name = ['g', 't'] then some '>'
    else if name = ['q', 'u', 'o', 't'] then some '\x22'
    else if name = ['a', 'p', 'o', 's'] then some '\x27'
    else none

/-- Replaces every reference; `literal` is applied to the other characters. An open reference
holds the characters read since its `&`, last one first. -/
def expandFrom (literal : Char → Char) (opened : Option (List Char)) :
    List Char → Option (List Char)
  | [] => if opened.isSome then none else some []
  | c :: rest =>
    match opened with
    | none =>
      if c = '&' then expandFrom literal (some []) rest
      else if isAllowed c.toNat then (expandFrom literal none rest).map (literal c :: ·)
      else none
    | some name =>
      if c = ';' then
        match resolve? name.reverse with
        | some r => (expandFrom literal none rest).map (r :: ·)
        | none => none
      else expandFrom literal (some (c :: name)) rest

def expandText (raw : List Char) : Option (List Char) := expandFrom id none raw

/-- An attribute value with its references replaced and every literal white space turned into a
blank; `<` may not stand in it. -/
def expandValue (raw : List Char) : Option (List Char) :=
  if raw.contains '<' then none
  else expandFrom (fun c => if isSpace c then ' ' else c) none raw

end Orchestration.Xml
