import Orchestration.Analysis.Basic
import Orchestration.Text.Layout

/-!
# Orchestration.Analysis.Summary

The findings for one file as text.
-/

namespace Orchestration.Analysis

/-- The traits that a summary names as patterns, with the names. -/
def patternNames : List (Trait × String) :=
  [(.aggregator, "Aggregator"), (.contentBasedRouting, "Content-Based Routing"),
    (.scatterGather, "Scatter-Gather"), (.messageBroker, "Message Broker"), (.convoy, "Convoy")]

def patterns (a : Analysis) : List String :=
  (patternNames.filter fun (t, _) => a.has t).map Prod.snd

/-- A line that is left out when there is nothing to list. -/
def listed (title : String) (names : List String) : List String :=
  if names.isEmpty then [] else [title ++ ", ".intercalate names]

/-- A file with its number of tags, or with what is wrong with it. -/
def headline (a : Analysis) (title : String) : String :=
  if a.parsed then s!"[OK] {title} ({a.tags.length} shape types)"
  else s!"[ERROR] {a.fileName}: {a.parseError}"

/-- The line of a tag and its count. -/
def countLine (tag : String) (count : Nat) : String :=
  "    " ++ Text.padRight 30 tag ++ " " ++ Text.padLeft 5 (toString count)

/-- The summary of a file. One that could not be read has only a headline. -/
def summary (a : Analysis) : List String :=
  a.headline a.orchestration ::
    if a.parsed then
      [s!"  Ports: {a.portCount}, Messages: {a.messageCount}, " ++
          s!"Correlation sets: {a.correlationCount}",
        s!"  Receive pattern: {a.receivePattern}"] ++
      (if a.receiveError = "" then [] else ["  [ERROR] " ++ a.receiveError]) ++
      ["", "  Shape counts:"] ++
      a.counts.ranked.map (fun (tag, count) => countLine tag count) ++
      (if a.unsupported.isEmpty then [] else [""]) ++
      listed "  [WARN] Unsupported: " a.unsupported ++
      listed "  [WARN] Partially supported: " a.limited ++
      listed "  Patterns: " a.patterns ++
      a.warnings.map ("  [WARN] " ++ ·)
    else []

end Orchestration.Analysis
