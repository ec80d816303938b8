import Orchestration.Designer.Segment
import Orchestration.Text.Utf16
import Orchestration.Text.Wide
import Orchestration.Yaml.Fault

/-!
# Orchestration.Failure

Why a file, a document or a settings file is refused.

* `Problem` — the cause.
* `Failure` — a cause and the source it belongs to; `Failure.wording` says what is wrong, and
  `Failure.kind` is the class of causes it belongs to.
* `Trouble` — everything that can stop a request: a failure, or a condition that no part of the
  library is prepared for.
-/

namespace Orchestration

/-- The classes of causes. -/
inductive FailureKind where
  /-- A file is missing or cannot be read. -/
  | io
  /-- A document is missing, incomplete or malformed. -/
  | format
  /-- A document lacks what every orchestration has. -/
  | semantic
  /-- A section of the model could not be built. -/
  | sectional
  /-- A settings file is not acceptable. -/
  | settings
  deriving DecidableEq

/-- The name of a class of causes, as reports show it. -/
def FailureKind.label : FailureKind → String
  | .io => "OrchestrationIOError"
  | .format => "FormatError"
  | .semantic => "SemanticError"
  | .sectional => "SectionError"
  | .settings => "ConfigError"

/-- What is wrong with settings. -/
inductive SettingsProblem where
  | unreadable
  | malformed
  | noMapping
  | unknownKeys (keys : List Text.Wide)
  | notTypeNames (key : Text.Wide)
  | notCount (key : Text.Wide)
  | notText (key : Text.Wide)
  | patternsNoMapping
  | unknownPattern (pattern : Text.Wide)
  | thresholdsNoMapping (pattern : String)
  | unknownThreshold (threshold : Text.Wide) (pattern : String)
  | thresholdNotCount (pattern threshold : String)
  /-- An unknown key is a number with too many digits to be shown. -/
  | keyTooLong
  deriving DecidableEq

/-- A cause. -/
inductive Problem where
  | fileMissing (path : String)
  /-- The system did not give the bytes of a file. -/
  | fileUnreadable (path cause : String)
  | segment (fault : Designer.SegmentFault) (sentinel : String)
  | malformed
  | unnamed
  /-- A section of the named orchestration failed. -/
  | section (orchestration title cause : String)
  /-- A section found its part of the document badly formed. -/
  | badSection (message : String)
  | settings (problem : SettingsProblem)
  deriving DecidableEq

/-- A cause and its source. -/
structure Failure where
  problem : Problem
  source : String
  deriving DecidableEq

def Problem.kind : Problem → FailureKind
  | .fileMissing _ => .io
  | .fileUnreadable _ _ => .io
  | .segment _ _ => .format
  | .malformed => .format
  | .unnamed => .semantic
  | .section _ _ _ => .sectional
  | .badSection _ => .format
  | .settings _ => .settings

/-- The wording of a fault in settings read from `path`. -/
def SettingsProblem.wording (path : String) : SettingsProblem → Text.Wide
  | .unreadable => s!"Cannot read config file {path}"
  | .malformed => s!"Invalid YAML in config file {path}"
  | .noMapping => s!"Config file {path} must contain a mapping"
  | .unknownKeys keys => s!"Unknown config keys in {path}: " ++ Text.Wide.joined ", " keys
  | .notTypeNames key => "'" ++ key ++ s!"' in {path} must be a list of shape type names"
  | .notCount key => "'" ++ key ++ s!"' in {path} must be a non-negative integer"
  | .notText key => "'" ++ key ++ s!"' in {path} must be a non-empty string"
  | .patternsNoMapping => s!"'pattern_thresholds' in {path} must be a mapping of patterns"
  | .unknownPattern pattern => "Unknown pattern '" ++ pattern ++ s!"' in {path}"
  | .thresholdsNoMapping pattern => s!"Thresholds for '{pattern}' in {path} must be a mapping"
  | .unknownThreshold threshold pattern =>
    "Unknown threshold '" ++ threshold ++ s!"' for pattern '{pattern}' in {path}"
  | .thresholdNotCount pattern threshold =>
    s!"Threshold '{pattern}.{threshold}' in {path} must be a non-negative integer"
  | .keyTooLong => s!"Unknown key in {path}"

namespace Failure

def kind (f : Failure) : FailureKind := f.problem.kind

def wording (f : Failure) : Text.Wide :=
  match f.problem with
  | .fileMissing path => s!"Orchestration file not found: {path}"
  | .fileUnreadable path cause => s!"Failed to read orchestration file '{path}': {cause}"
  | .segment .noDeclaration _ =>
    s!"Invalid orchestration file '{f.source}': Missing XML declaration."
  | .segment .noSentinel sentinel =>
    s!"Invalid orchestration file '{f.source}': Missing '{sentinel}' sentinel. " ++
      "The file may be corrupted or incomplete."
  | .malformed => s!"Failed to parse XML in orchestration file '{f.source}'"
  | .unnamed =>
    s!"Failed to extract orchestration name from '{f.source}'. " ++
      "The file structure may be invalid."
  | .section orchestration title cause =>
    s!"Failed to parse {title} in orchestration '{orchestration}': {cause}"
  | .badSection message => message
  | .settings problem => problem.wording f.source

/-- The wording as it is shown. -/
def message (f : Failure) : String := f.wording.shown

end Failure

/-- What stops a request. Only a failure has a wording of its own. -/
inductive Trouble where
  | failure (f : Failure)
  /-- A file announces an encoding that its bytes do not keep. -/
  | undecodable (fault : Text.Utf16.Fault)
  /-- A settings file holds something that no value belongs to. -/
  | settings (fault : Yaml.Fault)
  /-- A settings file has an unknown key that is no text. -/
  | keyNoText
  /-- A file pattern starts at the root. -/
  | absolutePattern
  /-- A file pattern joins `**` with something else. -/
  | mixedPattern
  /-- A file pattern has no components. -/
  | emptyPattern
  /-- A file pattern has no components but a slash at the end. -/
  | slashPattern
  /-- A message holds a half of a surrogate pair, which cannot be encoded. -/
  | unprintable
  /-- A path holds the character zero. -/
  | zeroInPath
  /-- The system does not tell what stands at a path. -/
  | denied (label : String)
  /-- The place for an output is a directory. -/
  | outputIsDirectory
  /-- The directory for an output is a file. -/
  | outputInFile
  /-- The directory for an output would stand below a file. -/
  | outputBelowFile
  deriving DecidableEq

namespace Trouble

/-- The name of what stops a request, as records show it. -/
def label : Trouble → String
  | .failure f => f.kind.label
  | .undecodable _ => "UnicodeDecodeError"
  | .settings fault => fault.label
  | .keyNoText => "TypeError"
  | .absolutePattern => "NotImplementedError"
  | .mixedPattern => "ValueError"
  | .emptyPattern => "IndexError"
  | .slashPattern => "AttributeError"
  | .unprintable => "UnicodeEncodeError"
  | .zeroInPath => "ValueError"
  | .denied label => label
  | .outputIsDirectory => "IsADirectoryError"
  | .outputInFile => "FileExistsError"
  | .outputBelowFile => "NotADirectoryError"

def message : Trouble → String
  | .failure f => f.message
  | .undecodable fault => fault.message
  | _ => ""

/-- A result whose only trouble is a failure. -/
def ofExcept {α : Type} : Except Failure α → Except Trouble α
  | .ok x => .ok x
  | .error f => .error (.failure f)

end Trouble

end Orchestration
