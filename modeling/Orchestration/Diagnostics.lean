import Orchestration.Model.Basic
import Orchestration.Tally
import Orchestration.Text.Layout

/-!
# Orchestration.Diagnostics

A model as text: totals by tag and the hierarchy of shapes. Shapes that stand side by side are
shown in order of their sequence numbers; equal numbers keep their order.
-/

namespace Orchestration.Diagnostics

open Shape (Handle Node Payload Tree)

def rule : String := Text.fill 80 '='

def preview (text : String) : String :=
  if text = "" then "(no expression)" else Text.first 60 text

def margin (level : Nat) : String := Text.fill (2 * level) ' '

/-- Handles in order of the sequence numbers of their nodes; handles of no node are left out. -/
def inSequence (t : Tree) (hs : List Handle) : List Handle :=
  let pairs := hs.filterMap fun h => (t.node? h).map fun n => (n.sequence, h)
  (pairs.mergeSort fun a b => decide (a.1 ≤ b.1)).map Prod.snd

def headline (n : Node) : String :=
  s!"[{n.tag}] {n.name} [{n.uniqueId}] [Seq:{n.sequence}]"

/-- A region: its title, when it is shown, and its shapes, some levels deeper. -/
structure Part where
  title : Option String
  shapes : List Handle
  depth : Nat

def branchParts (number : Nat) : List (List Handle) → List Part
  | [] => []
  | b :: rest =>
    ⟨some s!"BRANCH {number} ({b.length} shapes):", b, 2⟩ :: branchParts (number + 1) rest

/-- A part that is shown only when it has shapes. -/
def unlessEmpty (title : String) (hs : List Handle) : List Part :=
  if hs.isEmpty then [] else [⟨some s!"{title} ({hs.length} shapes):", hs, 2⟩]

/-- The lines that describe a payload, and its regions. -/
def describe : Payload → List String × List Part
  | .decide condition whenTrue whenFalse =>
    (["Expression: " ++ preview condition],
      unlessEmpty "TRUE branch" whenTrue ++ unlessEmpty "FALSE branch" whenFalse)
  | .switch subject cases otherwise =>
    (["Expression: " ++ preview subject],
      cases.map (fun (key, hs) => ⟨some s!"CASE '{key}' ({hs.length} shapes):", hs, 2⟩) ++
        unlessEmpty "DEFAULT" otherwise)
  | .listen branches => ([], branchParts 1 branches)
  | .construct messages inner =>
    (if messages.isEmpty then [] else ["Constructs: " ++ ", ".intercalate messages],
      [⟨none, inner, 1⟩])
  | _ => ([], [])

/-- The lines of a shape and everything below it, `depth` levels deep. -/
def renderWithin (t : Tree) : Nat → Nat → Handle → List String
  | 0, _, _ => []
  | depth + 1, level, h =>
    match t.node? h with
    | none => []
    | some n =>
      let (lines, parts) := describe n.payload
      let below := fun (level : Nat) (hs : List Handle) =>
        (inSequence t hs).flatMap (renderWithin t depth level)
      [margin level ++ headline n] ++ lines.map (margin (level + 1) ++ ·) ++
        parts.flatMap (fun p =>
          p.title.toList.map (margin (level + 1) ++ ·) ++ below (level + p.depth) p.shapes) ++
        below (level + 1) n.children

def render (m : Model) : List String :=
  (inSequence m.tree m.shapes).flatMap (renderWithin m.tree (m.tree.size + 1) 0)

def counts (m : Model) : Tally := Tally.ofNames (m.allShapes.map Node.tag)

def lines (m : Model) : List String :=
  [rule, s!"=== Orchestration Diagnostic: {m.fullName} ===", rule,
    s!"Top-Level Shapes: {m.shapes.length}",
    s!"Service-Level Declarations: {m.declared.length}",
    "", "=== TOTAL SHAPE COUNTS (including nested) ==="] ++
  (counts m).sorted.map (fun (tag, n) => s!"  {tag}: {n}") ++
  ["", "=== COMPLETE SHAPE HIERARCHY ==="] ++ render m ++ [rule]

def text (m : Model) : String := Text.ofLines (lines m)

end Orchestration.Diagnostics
