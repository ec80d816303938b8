/-!
# Orchestration.Command.Arguments

What stands on a command line.

* `Switch`  — an option and whether a value follows it.
* `Words`   — options and operands, each in order.
* `Words.read` — tells options from operands.

An option's value is attached with `=` or is the next word, whatever it looks like. After the word
`--` there are operands only.
-/

namespace Orchestration

/-- An option, and whether a value follows it. -/
structure Switch where
  name : String
  takesValue : Bool
  deriving DecidableEq

/-- The options with their values, and the operands. -/
structure Words where
  options : List (String × String)
  operands : List String
  deriving DecidableEq

/-- Whether a word is an option. A hyphen alone is an operand. -/
def isOption (word : String) : Bool :=
  match word.toList with
  | '-' :: _ :: _ => true
  | _ => false

/-- Cuts a word at its first equals sign. -/
def cutValue (word : String) : String × Option String :=
  match word.toList.span (· ≠ '=') with
  | (name, '=' :: value) => (String.ofList name, some (String.ofList value))
  | _ => (word, none)

namespace Words

def withOption (w : Words) (name value : String) : Words :=
  { w with options := (name, value) :: w.options }

def withOperand (w : Words) (word : String) : Words := { w with operands := word :: w.operands }

/-- Reads the words of a command line. Options may stand between operands if `mixed` is set;
otherwise everything from the first operand on is one. There is no result for an option that is
unknown, has no value, or has a value that it does not take. -/
def read (switches : List Switch) (mixed : Bool) : List String → Option Words
  | [] => some ⟨[], []⟩
  | word :: rest =>
    if word = "--" then some ⟨[], rest⟩
    else if isOption word then
      let (name, attached) := cutValue word
      match switches.find? fun s => s.name = name with
      | none => none
      | some s =>
        match s.takesValue, attached with
        | false, none => (read switches mixed rest).map (·.withOption name "")
        | false, some _ => none
        | true, some value => (read switches mixed rest).map (·.withOption name value)
        | true, none =>
          match rest with
          | [] => none
          | value :: rest => (read switches mixed rest).map (·.withOption name value)
    else if mixed then (read switches mixed rest).map (·.withOperand word)
    else some ⟨[], word :: rest⟩

def has (w : Words) (name : String) : Bool := w.options.any fun o => o.1 = name

/-- The value of an option; of several the last one. -/
def value? (w : Words) (name : String) : Option String := w.options.reverse.lookup name

/-- The value of an option, or nothing at all. -/
def value (w : Words) (name : String) : String := (w.value? name).getD ""

end Words

end Orchestration
