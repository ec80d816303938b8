import Orchestration.Yaml.Scan.Block
import Orchestration.Yaml.Scan.Plain
import Orchestration.Yaml.Scan.Quoted
import Orchestration.Yaml.Supply

/-!
# Orchestration.Yaml.Stream

A text as a stream of tokens.

* `Scan.next`     — the next token of a text.
* `Stream`        — the tokens that can be had, and the fault after them.
* `Stream.ofText` — the stream of a supply. A fault does not hide the tokens that are settled before
  it is met.
-/

namespace Orchestration.Yaml

namespace Scan

/-- Looks at the characters that tell what begins here. -/
def needLead (s : Scan) : Except Fault Unit := do
  let x := s.cursor.peek
  if s.cursor.column = 0 && (x == '-' || x == '.') then s.cursor.needMark
  if "-%@\t\x60".toList.contains x || (s.flow == 0 && (x == '?' || x == ':')) ||
      (s.flow != 0 && (x == '|' || x == '>'))
  then s.cursor.need 2

def next (s : Scan) : Except Fault Scan := do
  s.needLead
  let x := s.cursor.peek
  let apart := s.flow != 0 || endsWord (s.cursor.ahead 1)
  if x = '%' && s.cursor.column = 0 then s.directive
  else if s.cursor.column = 0 && s.cursor.atMark '-' then s.separator .documentStart
  else if s.cursor.column = 0 && s.cursor.atMark '.' then s.separator .documentEnd
  else if x = '[' then s.flowStart .flowSequence
  else if x = '\x7b' then s.flowStart .flowMapping
  else if x = ']' then s.flowEnd .flowSequenceEnd
  else if x = '\x7d' then s.flowEnd .flowMappingEnd
  else if x = ',' then s.flowEntry
  else if x = '-' && endsWord (s.cursor.ahead 1) then s.blockEntry
  else if x = '?' && apart then s.key
  else if x = ':' && apart then s.value
  else if x = '*' then s.named .alias
  else if x = '&' then s.named .anchor
  else if x = '!' then s.tag
  else if x = '|' && s.flow = 0 then s.block false
  else if x = '>' && s.flow = 0 then s.block true
  else if x = '\x27' || x = '\x22' then s.quoted x
  else if s.startsPlain then s.plain
  else .error .malformed

/-- The fault that is met when a text that is not whole has been used up. -/
def checkEnd (s : Scan) : Except Fault Scan := do
  s.cursor.need 1
  .ok s

/-- Goes on to the next token and reads it; at the end of the text this is the end. Candidates are
checked before anything more is looked at. -/
def step (s : Scan) : Except Fault Scan := do
  let s ← s.dropStale
  let s ← (s.skipSpace s.cursor.fuel).checkEnd
  let s := (← s.dropStale).unwind s.cursor.column
  if s.cursor.rest.isEmpty then s.finish else s.next >>= checkEnd

end Scan

/-- Tokens, and the fault that follows them; without one the last token is the end of the text. -/
structure Stream where
  tokens : List Token
  fault : Option Fault

namespace Stream

/-- Reads tokens up to the end of the text or to a fault. -/
def ofScan : Nat → Scan → Stream
  | 0, s => ⟨s.settled, some .malformed⟩
  | fuel + 1, s =>
    match s.step with
    | .error f => ⟨s.settled, some f⟩
    | .ok s => if s.tokens.head? = some .textEnd then ⟨s.tokens.reverse, none⟩ else ofScan fuel s

/-- The stream of a supply. Each token takes a character, so the length of the text is fuel
enough. A byte order mark at the beginning is skipped. -/
def ofText (t : Supply) : Stream :=
  let body := if t.text.head? = some '\uFEFF' then t.text.drop 1 else t.text
  ofScan (body.length + 2) (.start (.start body t.fault))

end Stream

end Orchestration.Yaml
