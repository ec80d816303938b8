import Orchestration.Json
import Orchestration.Shape.Tree

/-!
# Orchestration.Shape.Record

A shape with everything below it as structured data: the header, the fields of its payload, its
children. Regions hold the records of their shapes.
-/

namespace Orchestration.Shape

namespace Exchange

def fields (x : Exchange) : List (String × Json) :=
  [("port_name", .str x.port), ("message_name", .str x.message),
    ("operation_name", .str x.operation), ("operation_message_name", .str x.operationMessage)]

end Exchange

def StatementRef.record (r : StatementRef) : Json :=
  .obj [("statement_oid", .str r.statement), ("initializes", .bool r.initializes)]

/-- The fields of a payload; `shapes` gives the records of a region. -/
def Payload.fields (shapes : List Handle → Json) : Payload → List (String × Json)
  | .nothing => []
  | .receive x activate initializes follows =>
    x.fields ++
      [("activate", .bool activate), ("initializes_correlation_sets", .strings initializes),
        ("follows_correlation_sets", .strings follows)]
  | .send x => x.fields
  | .construct messages inner =>
    [("constructed_messages", .strings messages), ("inner_shapes", shapes inner)]
  | .transform className inputs outputs =>
    [("class_name", .str className), ("input_messages", .strings inputs),
      ("output_messages", .strings outputs)]
  | .expression text => [("expression", .str text)]
  | .loop loopType collection item =>
    [("loop_type", .str loopType), ("collection_expression", .str collection),
      ("item_variable", .str item)]
  | .invoke target => [("invokee", .str target)]
  | .correlation typeRef refs =>
    [("correlation_type_ref", .str typeRef), ("statement_refs", .arr (refs.map (·.record)))]
  | .decide condition whenTrue whenFalse =>
    [("expression", .str condition), ("true_branch", shapes whenTrue),
      ("false_branch", shapes whenFalse)]
  | .switch subject cases otherwise =>
    [("expression", .str subject),
      ("cases", .obj (cases.map fun (key, hs) => (key, shapes hs))),
      ("default_case", shapes otherwise)]
  | .listen branches => [("branches", .arr (branches.map shapes))]
  | .terminate message => [("error_message", .str message)]
  | .delay duration => [("delay_expression", .str duration)]
  | .compensate target => [("target", .str target)]
  | .exception exceptionType variableName =>
    [("exception_type", .str exceptionType), ("exception_variable", .str variableName)]
  | .variable varType useDefault =>
    [("var_type", .str varType), ("use_default", .str useDefault)]
  | .callRules policy => [("policy_name", .str policy)]
  | .fallback details => [("details", .str details)]

/-- The record of a node; `shapes` gives the records of regions and children. -/
def Node.record (shapes : List Handle → Json) (n : Node) : Json :=
  .obj <|
    [("oid", .str n.oid), ("name", .str n.name), ("shape_type", .str n.tag),
      ("kind", .str n.kind.label), ("sequence", .int n.sequence),
      ("unique_id", .str n.uniqueId)] ++
    n.payload.fields shapes ++ [("children", shapes n.children)]

namespace Tree

/-- The record of a handle, `depth` levels deep. -/
def recordWithin (t : Tree) : Nat → Handle → Json
  | 0, _ => .null
  | depth + 1, h =>
    match t.node? h with
    | none => .null
    | some n => n.record fun hs => .arr (hs.map (t.recordWithin depth))

/-- The record of a shape. No path through a tree is longer than the tree is large. -/
def record (t : Tree) (h : Handle) : Json := t.recordWithin (t.size + 1) h

end Tree

end Orchestration.Shape
