/-!
# Orchestration.Yaml.Fault

Why a text is not read.
-/

namespace Orchestration.Yaml

/-- Why a text is not read. -/
inductive Fault where
  /-- The text breaks a rule of the format. -/
  | malformed
  /-- The bytes of the text are not UTF-8. -/
  | undecodable
  /-- A number, a date or a character is written that does not exist. -/
  | outOfRange
  /-- A number is too large to be computed with. -/
  | tooLarge
  /-- A number without any digit. -/
  | noNumber
  /-- A truth value with a word that is none. -/
  | noTruth
  /-- A date with a text that is none. -/
  | noDate
  /-- A date that a mapping stands for. -/
  | dateOfMapping
  /-- A scalar that a mapping stands for, which stands for itself. -/
  | endless
  deriving DecidableEq

/-- The name of a fault, as records show it; there is none for a broken rule. -/
def Fault.label : Fault → String
  | .malformed => ""
  | .undecodable => "UnicodeDecodeError"
  | .outOfRange => "ValueError"
  | .tooLarge => "OverflowError"
  | .noNumber => "IndexError"
  | .noTruth => "KeyError"
  | .noDate => "AttributeError"
  | .dateOfMapping => "TypeError"
  | .endless => "RecursionError"

end Orchestration.Yaml
