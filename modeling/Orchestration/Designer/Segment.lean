import Orchestration.Text.Search

/-!
# Orchestration.Designer.Segment

The designer's document inside a source file.

* A source file holds the document, then generated code; a sentinel stands between them.
* `segment` cuts the document out: from the first declaration marker up to the first sentinel
  after it.
-/

namespace Orchestration.Designer

def declarationMarker : String := "<?xml"

def sentinelMarker : String := "#endif"

/-- Why a text holds no document. -/
inductive SegmentFault where
  | noDeclaration
  | noSentinel
  deriving DecidableEq

/-- The document inside a text, for any marker and sentinel. -/
def segment (marker sentinel text : List Char) : Except SegmentFault (List Char) :=
  match Text.splitBefore marker text with
  | none => .error .noDeclaration
  | some (_, rest) =>
    match Text.splitBefore sentinel rest with
    | none => .error .noSentinel
    | some (document, _) => .ok document

end Orchestration.Designer
