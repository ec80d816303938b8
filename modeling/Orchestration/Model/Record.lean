import Orchestration.Model.Basic
import Orchestration.Shape.Record

/-!
# Orchestration.Model.Record

A model as structured data.
-/

namespace Orchestration

def Message.record (m : Message) : Json :=
  .obj [("name", .str m.name), ("type", .str m.type), ("direction", .str m.direction)]

def Operation.record (o : Operation) : Json :=
  .obj
    [("name", .str o.name), ("operation_type", .str o.operationType),
      ("request_message_type", .str o.request), ("response_message_type", .str o.response),
      ("fault_message_type", .str o.fault)]

def PortType.record (p : PortType) : Json :=
  .obj
    [("name", .str p.name), ("modifier", .str p.modifier),
      ("operations", .arr (p.operations.map Operation.record))]

/-- The record of a port; what a source file does not tell is empty. -/
def Port.record (p : Port) : Json :=
  .obj
    [("name", .str p.name), ("port_type_reference", .str p.typeRef),
      ("direction", .str p.direction.label), ("binding_kind", .str p.binding.label),
      ("adapter_name", .str p.transport), ("transport_type", .str p.transport),
      ("address", .str ""), ("folder_path", .str ""), ("file_mask", .str ""),
      ("polling_interval_seconds", .null), ("receive_pipeline_name", .str ""),
      ("send_pipeline_name", .str "")]

def Model.record (m : Model) : Json :=
  .obj
    [("namespace", .str m.namespaceName), ("name", .str m.name), ("full_name", .str m.fullName),
      ("messages", .arr (m.messages.map Message.record)),
      ("port_types", .arr (m.portTypes.map PortType.record)),
      ("ports", .arr (m.ports.map Port.record)),
      ("service_variables", .arr (m.declaredVariables.map m.tree.record)),
      ("service_correlations", .arr (m.declaredCorrelations.map m.tree.record)),
      ("shapes", .arr (m.shapes.map m.tree.record))]

end Orchestration
