/-!
# Orchestration.Event

What is reported while a document is read.
-/

namespace Orchestration

/-- How much an event matters. -/
inductive Level where
  | debug
  | info
  | warning
  deriving DecidableEq

def Level.label : Level → String
  | .debug => "DEBUG"
  | .info => "INFO"
  | .warning => "WARNING"

/-- A reported line. -/
structure Event where
  level : Level
  text : String
  deriving DecidableEq

namespace Event

def debug (text : String) : Event := ⟨.debug, text⟩

def info (text : String) : Event := ⟨.info, text⟩

def warning (text : String) : Event := ⟨.warning, text⟩

end Event

end Orchestration
