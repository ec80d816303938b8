import Orchestration.Yaml.Graph
import Orchestration.Yaml.Stream

/-!
# Orchestration.Yaml.Reader

From tokens to the parts of a document.

* `Reader`       — the tokens that are left, and the parts so far.
* `Reader.node`  — reads one part with everything in it.
* `document?`    — the only document of a stream, if there is one.
-/

namespace Orchestration.Yaml

/-- The tokens that are left, the fault after them, what handles stand for, the anchored parts, and
all parts so far. -/
structure Reader where
  tokens : List Token
  fault : Option Fault
  handles : List (String × String)
  anchors : List (String × Nat)
  graph : Graph

namespace Reader

def peek (r : Reader) : Except Fault Token :=
  match r.tokens with
  | t :: _ => .ok t
  | [] => .error (r.fault.getD .malformed)

def rest (r : Reader) : Reader := { r with tokens := r.tokens.drop 1 }

/-- Whether the next token is one of the given ones. -/
def isAt (r : Reader) (ts : List Token) : Except Fault Bool := r.peek.map ts.contains

def add (r : Reader) (p : Part) : Nat × Reader :=
  (r.graph.size, { r with graph := r.graph.push p })

/-- Adds what stands where nothing is written. -/
def addNothing (r : Reader) : Nat × Reader := r.add ⟨.null, .text ""⟩

def usualHandles : List (String × String) := [("!", "!"), ("!!", Tag.coreLead)]

def tagName (r : Reader) (handle : Option String) (suffix : String) : Except Fault String :=
  match handle with
  | none => .ok suffix
  | some h =>
    match r.handles.lookup h with
    | some lead => .ok (lead ++ suffix)
    | none => .error .malformed

/-- What is written in front of a part. -/
structure Properties where
  anchor : Option String
  tag : Option String

/-- Reads an anchor and a tag, in either order. -/
def properties (r : Reader) : Except Fault (Properties × Reader) := do
  match ← r.peek with
  | .anchor a =>
    let r := r.rest
    match ← r.peek with
    | .tag h s => .ok (⟨some a, some (← r.tagName h s)⟩, r.rest)
    | _ => .ok (⟨some a, none⟩, r)
  | .tag h s =>
    match ← r.rest.peek with
    | .anchor a => .ok (⟨some a, some (← r.tagName h s)⟩, r.rest.rest)
    | _ => .ok (⟨none, some (← r.tagName h s)⟩, r.rest)
  | _ => .ok (⟨none, none⟩, r)

/-- The tag of a collection; `usual` without one. -/
def Properties.collection (p : Properties) (usual : Tag) : Tag :=
  match p.tag with
  | none => usual
  | some name => if name = "!" then usual else .ofName name

/-- The tag of a scalar. The form of its text is told by the characters that show it: no form has
the one that shows a half. -/
def Properties.scalar (p : Properties) (text : Text.Wide) (plain : Bool) : Tag :=
  match p.tag with
  | none => if plain then .ofPlain text.shown else .str
  | some name => if name = "!" then .ofPlain text.shown else .ofName name

/-- Adds a part under its anchor. No anchor may be used twice. -/
def enter (r : Reader) (p : Properties) (tag : Tag) (c : Content) : Except Fault (Nat × Reader) :=
  let (i, r) := r.add ⟨tag, c⟩
  match p.anchor with
  | none => .ok (i, r)
  | some a =>
    if (r.anchors.lookup a).isSome then .error .malformed
    else .ok (i, { r with anchors := (a, i) :: r.anchors })

def fill (r : Reader) (i : Nat) (c : Content) : Reader := { r with graph := r.graph.fill i c }

/-- Reads a part of which only the anchor or the tag is written. -/
def nothing (p : Properties) (r : Reader) : Except Fault (Nat × Reader) :=
  if p.anchor.isSome || p.tag.isSome then r.enter p (p.scalar "" true) (.text "")
  else .error .malformed

/-- Goes to the next member of a flow collection or to its end; all members but the first follow a
comma. -/
def afterComma (first : Bool) (close : Token) (r : Reader) : Except Fault (Token × Reader) := do
  let t ← r.peek
  if t = close || first then .ok (t, r)
  else if t = .flowEntry then .ok (← r.rest.peek, r.rest)
  else .error .malformed

mutual

/-- Reads a part. In a block the collections of blocks may stand here, and where `compact` holds
also a sequence that is not indented. A collection has its anchor before its members are read. -/
def node (block compact : Bool) : Nat → Reader → Except Fault (Nat × Reader)
  | 0, _ => .error .malformed
  | fuel + 1, r => do
    match ← r.peek with
    | .alias name =>
      match r.anchors.lookup name with
      | some i => .ok (i, r.rest)
      | none => .error .malformed
    | _ =>
      let (p, r) ← r.properties
      let list := fun (members : Reader → Except Fault (List Nat × Reader)) => do
        let (i, r) ← r.enter p (p.collection .seq) (.list [])
        let (items, r) ← members r
        .ok (i, r.fill i (.list items))
      let mapping := fun (members : Reader → Except Fault (List (Nat × Nat) × Reader)) => do
        let (i, r) ← r.enter p (p.collection .map) (.mapping [])
        let (pairs, r) ← members r.rest
        .ok (i, r.fill i (.mapping pairs))
      let t ← r.peek
      if compact && t = .blockEntry then list (compactItems fuel)
      else
        match t with
        | .scalar text plain => r.rest.enter p (p.scalar text plain) (.text text)
        | .flowSequence => list fun r => flowItems true fuel r.rest
        | .flowMapping => mapping (flowPairs true fuel)
        | .blockSequence => if block then list fun r => blockItems fuel r.rest else nothing p r
        | .blockMapping => if block then mapping (blockPairs fuel) else nothing p r
        | _ => nothing p r

/-- Reads a part, or nothing when one of the given tokens stands in its place. -/
def nodeUnless (stops : List Token) (block compact : Bool) :
    Nat → Reader → Except Fault (Nat × Reader)
  | 0, _ => .error .malformed
  | fuel + 1, r => do
    if ← r.isAt stops then .ok r.addNothing else node block compact fuel r

/-- Reads the value of a pair, if there is one. -/
def valueUnless (stops : List Token) (block : Bool) : Nat → Reader → Except Fault (Nat × Reader)
  | 0, _ => .error .malformed
  | fuel + 1, r => do
    if ← r.isAt [.value] then nodeUnless stops block block fuel r.rest else .ok r.addNothing

/-- Reads the items of a block sequence and its end. -/
def blockItems : Nat → Reader → Except Fault (List Nat × Reader)
  | 0, _ => .error .malformed
  | fuel + 1, r => do
    match ← r.peek with
    | .blockEntry =>
      let (n, r) ← nodeUnless [.blockEntry, .blockEnd] true false fuel r.rest
      let (items, r) ← blockItems fuel r
      .ok (n :: items, r)
    | .blockEnd => .ok ([], r.rest)
    | _ => .error .malformed

/-- Reads the items of a sequence that is not indented. -/
def compactItems : Nat → Reader → Except Fault (List Nat × Reader)
  | 0, _ => .error .malformed
  | fuel + 1, r => do
    match ← r.peek with
    | .blockEntry =>
      let (n, r) ← nodeUnless [.blockEntry, .key, .value, .blockEnd] true false fuel r.rest
      let (items, r) ← compactItems fuel r
      .ok (n :: items, r)
    | _ => .ok ([], r)

/-- Reads the pairs of a block mapping and its end. -/
def blockPairs : Nat → Reader → Except Fault (List (Nat × Nat) × Reader)
  | 0, _ => .error .malformed
  | fuel + 1, r => do
    match ← r.peek with
    | .key =>
      let stops := [Token.key, .value, .blockEnd]
      let (k, r) ← nodeUnless stops true true fuel r.rest
      let (v, r) ← valueUnless stops true fuel r
      let (pairs, r) ← blockPairs fuel r
      .ok ((k, v) :: pairs, r)
    | .blockEnd => .ok ([], r.rest)
    | _ => .error .malformed

/-- Reads the items of a flow sequence and its end. A single pair may stand as an item. -/
def flowItems (first : Bool) : Nat → Reader → Except Fault (List Nat × Reader)
  | 0, _ => .error .malformed
  | fuel + 1, r => do
    match ← r.afterComma first .flowSequenceEnd with
    | (.flowSequenceEnd, r) => .ok ([], r.rest)
    | (.key, r) =>
      let (i, r) := r.add ⟨.map, .mapping []⟩
      let (k, r) ← nodeUnless [.value, .flowEntry, .flowSequenceEnd] false false fuel r.rest
      let (v, r) ← valueUnless [.flowEntry, .flowSequenceEnd] false fuel r
      let (items, r) ← flowItems false fuel (r.fill i (.mapping [(k, v)]))
      .ok (i :: items, r)
    | (_, r) =>
      let (n, r) ← node false false fuel r
      let (items, r) ← flowItems false fuel r
      .ok (n :: items, r)

/-- Reads the pairs of a flow mapping and its end. A key may stand alone. -/
def flowPairs (first : Bool) : Nat → Reader → Except Fault (List (Nat × Nat) × Reader)
  | 0, _ => .error .malformed
  | fuel + 1, r => do
    match ← r.afterComma first .flowMappingEnd with
    | (.flowMappingEnd, r) => .ok ([], r.rest)
    | (.key, r) =>
      let (k, r) ← nodeUnless [.value, .flowEntry, .flowMappingEnd] false false fuel r.rest
      let (v, r) ← valueUnless [.flowEntry, .flowMappingEnd] false fuel r
      let (pairs, r) ← flowPairs false fuel r
      .ok ((k, v) :: pairs, r)
    | (_, r) =>
      let (k, r) ← node false false fuel r
      let (v, r) := r.addNothing
      let (pairs, r) ← flowPairs false fuel r
      .ok ((k, v) :: pairs, r)

end

/-- Reads the directives of a document. The version is 1 and is given once; no handle is given
twice. -/
def directives : List Token → Reader → Option Nat → Except Fault Reader
  | .directive d :: ts, r, version =>
    match d with
    | .version major =>
      if version.isSome || major ≠ 1 then .error .malformed
      else directives ts { r with tokens := ts } (some major)
    | .handle name lead =>
      if (r.handles.lookup name).isSome then .error .malformed
      else directives ts { r with tokens := ts, handles := (name, lead) :: r.handles } version
    | .other => directives ts { r with tokens := ts } version
  | _, r, _ => .ok { r with handles := r.handles ++ usualHandles }

def root (fuel : Nat) (r : Reader) : Except Fault (Nat × Reader) := do
  match ← r.peek with
  | .directive _ | .documentStart =>
    let r ← directives r.tokens r none
    match ← r.peek with
    | .documentStart =>
      match ← r.rest.peek with
      | .directive _ | .documentStart | .documentEnd | .textEnd => .ok r.rest.addNothing
      | _ => node true false fuel r.rest
    | _ => .error .malformed
  | _ => node true false fuel { r with handles := usualHandles }

/-- The tokens after the marks that end a document. -/
def skipEnds (r : Reader) : Reader := { r with tokens := r.tokens.dropWhile (· = .documentEnd) }

def checkEnd (r : Reader) : Except Fault Unit := do
  let r := r.skipEnds
  match ← r.peek with
  | .textEnd => .ok ()
  | _ =>
    let r ← directives r.tokens { r with handles := [] } none
    let _ ← r.peek
    .error .malformed

end Reader

/-- The only document of a stream: its parts, and the number of the outermost one. -/
def document? (s : Stream) : Except Fault (Option (Graph × Nat)) := do
  let r : Reader := ⟨s.tokens, s.fault, [], [], #[]⟩
  if ← r.isAt [.textEnd] then .ok none
  else
    let (i, r) ← r.root (4 * s.tokens.length + 4)
    r.checkEnd
    .ok (some (r.graph, i))

end Orchestration.Yaml
