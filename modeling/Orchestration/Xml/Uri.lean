/-!
# Orchestration.Xml.Uri

The form of URI references, which the names of namespaces must have.

* Each part is a run of characters; `drop` leaves what comes after such a run.
* `isReference` — a scheme with its hierarchy, or a relative reference, each with a query and a
  fragment.
-/

namespace Orchestration.Xml.Uri

/-- One of the sixteen digits, in either case. -/
def isHex (c : Char) : Bool :=
  c.isDigit || ('a' ≤ c && c ≤ 'f') || ('A' ≤ c && c ≤ 'F')

/-- Characters that may stand in every part. -/
def isOrdinary (c : Char) : Bool := c.isAlphanum || "-._~!$&\x27()*+,;=".toList.contains c

/-- Drops a run of ordinary characters, of the given extra ones and of escapes. -/
def drop (extra : List Char) : List Char → List Char
  | [] => []
  | '%' :: a :: b :: rest =>
    if isHex a && isHex b then drop extra rest else '%' :: a :: b :: rest
  | c :: rest => if isOrdinary c || extra.contains c then drop extra rest else c :: rest

def dropPath : List Char → List Char := drop [':', '@', '/']

/-- Whether the rest after a path is at most a query and a fragment. -/
def endsWell (s : List Char) : Bool :=
  let query := match s with
    | '?' :: rest => drop [':', '@', '/', '?'] rest
    | rest => rest
  match query with
  | '#' :: rest => (drop [':', '@', '/', '?', '[', ']'] rest).isEmpty
  | rest => rest.isEmpty

/-- Drops a host: a name, or an address in brackets. -/
def dropHost : List Char → Option (List Char)
  | '[' :: rest =>
    match rest.dropWhile (· ≠ ']') with
    | _ :: rest => some rest
    | [] => none
  | rest => some (drop [] rest)

/-- Drops an authority: a user that ends in `@`, a host, and a port. -/
def dropAuthority (s : List Char) : Option (List Char) :=
  let host := match drop [':'] s with
    | '@' :: rest => rest
    | _ => s
  match dropHost host with
  | some (':' :: digits) =>
    if (digits.head?.any Char.isDigit) then some (digits.dropWhile Char.isDigit) else none
  | rest => rest

/-- Whether an authority and a path, or a path alone, with a query and a fragment. -/
def isHierarchy : List Char → Bool
  | '/' :: '/' :: rest =>
    match dropAuthority rest with
    | some ('/' :: rest) => endsWell (dropPath rest)
    | some rest => endsWell rest
    | none => false
  | rest => endsWell (dropPath rest)

/-- The rest after a scheme and its colon. -/
def afterScheme? : List Char → Option (List Char)
  | [] => none
  | c :: rest =>
    if c.isAlpha then
      match rest.dropWhile fun x => x.isAlphanum || ['+', '-', '.'].contains x with
      | ':' :: rest => some rest
      | _ => none
    else none

/-- Whether a relative reference. Its first component holds no colon. -/
def isRelative : List Char → Bool
  | '/' :: rest => isHierarchy ('/' :: rest)
  | s =>
    match drop ['@'] s with
    | '/' :: rest => endsWell (dropPath rest)
    | rest => endsWell rest

/-- Whether a text has the form of a URI reference. -/
def isReference (s : List Char) : Bool := (afterScheme? s).any isHierarchy || isRelative s

end Orchestration.Xml.Uri
