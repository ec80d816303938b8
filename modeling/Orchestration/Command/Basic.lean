import Orchestration.Command.Arguments

/-!
# Orchestration.Command.Basic

What can be asked of the program.

* `Command` — the four commands with what they are told.
* `Request` — a command, or a question about the program itself.
* `Request.ofArguments?` — reads a command line; there is no request when it is misused.
-/

namespace Orchestration

/-- A command. Paths are kept as they were typed; an empty output or pattern is none. -/
inductive Command where
  /-- Shows or saves the model of a file. -/
  | parse (file output : String)
  /-- Shows the findings for a file. -/
  | analyze (file : String) (settings : Option String) (structured : Bool)
  /-- Shows the report of a directory. -/
  | scan (directory output pattern : String) (settings : Option String)
  /-- Shows the hierarchy of a file's shapes. -/
  | diagnose (file : String)
  deriving DecidableEq

/-- What a command line asks for. -/
inductive Request where
  | version
  | help
  | command (c : Command)
  deriving DecidableEq

def Switch.flag (name : String) : Switch := ⟨name, false⟩

def Switch.valued (name : String) : Switch := ⟨name, true⟩

namespace Command

/-- The typed paths that a command reads. -/
def reads : Command → List String
  | .parse file _ => [file]
  | .analyze file settings _ => file :: settings.toList
  | .scan directory _ _ settings => directory :: settings.toList
  | .diagnose file => [file]

/-- The typed path that a command writes. -/
def writes? : Command → Option String
  | .parse _ output => if output = "" then none else some output
  | .scan _ output _ _ => if output = "" then none else some output
  | _ => none

/-- The options of a command; there are none without such a command. -/
def switches? (name : String) : Option (List Switch) :=
  if name = "parse" then some [.flag "--help", .valued "--output"]
  else if name = "analyze" then some [.flag "--help", .valued "--config", .flag "--json"]
  else if name = "scan" then
    some [.flag "--help", .valued "--output", .valued "--pattern", .valued "--config",
      .flag "--progress", .flag "--no-progress"]
  else if name = "diagnose" then some [.flag "--help"]
  else none

/-- The command of a name on one operand. -/
def ofWords (name operand : String) (w : Words) : Command :=
  if name = "parse" then .parse operand (w.value "--output")
  else if name = "analyze" then .analyze operand (w.value? "--config") (w.has "--json")
  else if name = "scan" then
    .scan operand (w.value "--output") (w.value "--pattern") (w.value? "--config")
  else .diagnose operand

end Command

namespace Request

/-- The options that stand before the command. -/
def switches : List Switch := [.flag "--help", .flag "--version", .flag "--verbose"]

/-- The question about the program that some options ask; the first one counts. -/
def question? : List (String × String) → Option Request
  | [] => none
  | (name, _) :: rest =>
    if name = "--help" then some .help
    else if name = "--version" then some .version
    else question? rest

/-- Reads a command's own words. A question goes before everything that is missing or too much. -/
def ofCommand? (name : String) (rest : List String) : Option Request := do
  let switches ← Command.switches? name
  let w ← Words.read switches true rest
  match question? w.options, w.operands with
  | some q, _ => some q
  | none, [operand] => some (.command (Command.ofWords name operand w))
  | none, _ => none

/-- The question that words ask which stand where a command is missing. -/
def lateQuestion? (words : List String) : Option Request := do
  let w ← Words.read switches false words
  question? w.options

def ofArguments? (args : List String) : Option Request := do
  let w ← Words.read switches false args
  match question? w.options, w.operands with
  | some q, _ => some q
  | none, [] => none
  | none, name :: rest =>
    if (Command.switches? name).isSome then ofCommand? name rest
    else lateQuestion? (name :: rest)

end Request

end Orchestration
