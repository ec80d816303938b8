import Mathlib.Data.List.Basic
import Orchestration.Declarations

/-!
# Orchestration.Proofs.Designer.Document

Documents without the declarations of one type.

* `Document.withoutDeclared` — the document that is left when they are taken out of the services.
* `Document.declared_withoutDeclared` and its companions — what is found in the rest is found there
  as before.
-/

namespace Orchestration.Designer

namespace Element

/-- The element with its child elements of one type changed. -/
def mapNested (type : String) (f : Element → Element) (e : Element) : Element :=
  { e with children := e.children.map fun c => if c.isOneOf [type] then f c else c }

/-- The element without its child elements of one type. -/
def without (type : String) (e : Element) : Element :=
  { e with children := e.children.filter fun c => !c.isOneOf [type] }

theorem type?_mapNested (type : String) (f : Element → Element) (e : Element) :
    (e.mapNested type f).type? = e.type? := rfl

theorem properties_mapNested (type : String) (f : Element → Element) (e : Element) :
    (e.mapNested type f).properties = e.properties := rfl

theorem properties_without (type : String) (e : Element) :
    (e.without type).properties = e.properties := rfl

theorem type?_without (type : String) (e : Element) : (e.without type).type? = e.type? := rfl

theorem isOneOf_singleton (e : Element) (type : String) :
    e.isOneOf [type] = true ↔ e.type? = some type := by
  cases h : e.type? with
  | none => simp [isOneOf, h]
  | some t => simp [isOneOf, h]

theorem isOneOf_of_ne {e : Element} {type other : String} (hne : other ≠ type)
    (he : e.isOneOf [other] = true) : e.isOneOf [type] = false := by
  rw [Bool.eq_false_iff]
  intro ht
  rw [isOneOf_singleton] at he ht
  exact hne (Option.some.inj (he.symm.trans ht))

theorem select_without (type : String) (e : Element) : (e.without type).select [type] = [] := by
  rw [select, without, List.filter_filter, List.filter_eq_nil_iff]
  intro c _
  simp

theorem select_without_of_ne {type other : String} (hne : other ≠ type) (e : Element) :
    (e.without type).select [other] = e.select [other] := by
  rw [select, without, List.filter_filter, select]
  refine List.filter_congr fun c _ => ?_
  cases hc : c.isOneOf [other] with
  | false => simp
  | true => simp [isOneOf_of_ne hne hc]

section

variable {f : Element → Element} (hf : ∀ e, (f e).type? = e.type?)

include hf

theorem isOneOf_changed (e : Element) (types : List String) :
    (f e).isOneOf types = e.isOneOf types := by
  rw [isOneOf, hf, isOneOf]

theorem select_mapNested (type : String) (e : Element) :
    (e.mapNested type f).select [type] = (e.select [type]).map f := by
  rw [select, mapNested, select]
  induction e.children with
  | nil => rfl
  | cons c rest ih =>
    by_cases hc : c.isOneOf [type] = true
    · simp only [List.map_cons, hc, if_true, List.filter_cons, isOneOf_changed hf, ih]
    · simp only [List.map_cons, hc, if_false, List.filter_cons, Bool.false_eq_true, ih]

theorem select_mapNested_of_ne {type other : String} (hne : other ≠ type) (e : Element) :
    (e.mapNested type f).select [other] = e.select [other] := by
  rw [select, mapNested, select]
  induction e.children with
  | nil => rfl
  | cons c rest ih =>
    by_cases hc : c.isOneOf [type] = true
    · have hother : c.isOneOf [other] = false := isOneOf_of_ne hne.symm hc
      simp only [List.map_cons, hc, if_true, List.filter_cons, isOneOf_changed hf, hother,
        Bool.false_eq_true, if_false, ih]
    · simp only [List.map_cons, hc, if_false, List.filter_cons, Bool.false_eq_true, ih]

end

end Element

/-- Elements that keep their properties have the same values. -/
theorem firstValue_map {f : Element → Element} (hf : ∀ e, (f e).properties = e.properties)
    (es : List Element) (name : String) : firstValue (es.map f) name = firstValue es name := by
  have hprop : (fun e => Element.prop? (f e) name) = fun e => e.prop? name := by
    funext e
    rw [Element.prop?, hf, Element.prop?]
  rw [firstValue, firstValue, List.findSome?_map]
  exact congrArg (fun g => (es.findSome? g).getD "") hprop

namespace Document

/-- The document without the elements of one type directly inside its services. -/
def withoutDeclared (d : Document) (type : String) : Document :=
  { d with root :=
      d.root.mapNested "Module" (Element.mapNested "ServiceDeclaration" (Element.without type)) }

variable (d : Document) (type : String)

theorem modules_withoutDeclared : (d.withoutDeclared type).modules =
    d.modules.map (Element.mapNested "ServiceDeclaration" (Element.without type)) := by
  unfold modules
  rw [withoutDeclared]
  split
  · exact Element.select_mapNested (Element.type?_mapNested _ _) "Module" d.root
  · rfl

theorem services_withoutDeclared :
    (d.withoutDeclared type).services = d.services.map (Element.without type) := by
  rw [services, modules_withoutDeclared, List.flatMap_map, services, List.map_flatMap]
  exact List.flatMap_congr fun m _ => Element.select_mapNested (Element.type?_without type) _ m

theorem name_withoutDeclared (name : String) :
    firstValue (d.withoutDeclared type).services name = firstValue d.services name := by
  rw [services_withoutDeclared]
  exact firstValue_map (Element.properties_without type) d.services name

theorem namespace_withoutDeclared (name : String) :
    firstValue (d.withoutDeclared type).modules name = firstValue d.modules name := by
  rw [modules_withoutDeclared]
  exact firstValue_map (Element.properties_mapNested _ _) d.modules name

theorem declared_withoutDeclared : (d.withoutDeclared type).declared type = [] := by
  rw [declared, services_withoutDeclared, List.flatMap_map, List.flatMap_eq_nil_iff]
  exact fun s _ => s.select_without type

variable {d type}

theorem declared_withoutDeclared_of_ne {other : String} (hne : other ≠ type) :
    (d.withoutDeclared type).declared other = d.declared other := by
  rw [declared, services_withoutDeclared, List.flatMap_map, declared]
  exact List.flatMap_congr fun s _ => Element.select_without_of_ne hne s

theorem bodies_withoutDeclared (hne : "ServiceBody" ≠ type) :
    (d.withoutDeclared type).bodies = d.bodies :=
  declared_withoutDeclared_of_ne hne

theorem messages_withoutDeclared (hne : "MessageDeclaration" ≠ type) :
    (d.withoutDeclared type).messages = d.messages := by
  rw [messages, declared_withoutDeclared_of_ne hne, messages]

theorem ports_withoutDeclared (hne : "PortDeclaration" ≠ type) :
    (d.withoutDeclared type).ports = d.ports := by
  rw [ports, declared_withoutDeclared_of_ne hne, ports]

/-- Port types stand beside the services. -/
theorem portTypes_withoutDeclared : (d.withoutDeclared type).portTypes = d.portTypes := by
  have hselect : (d.withoutDeclared type).modules.flatMap (·.select ["PortType"]) =
      d.modules.flatMap (·.select ["PortType"]) := by
    rw [modules_withoutDeclared, List.flatMap_map]
    exact List.flatMap_congr fun m _ =>
      Element.select_mapNested_of_ne (Element.type?_without type) (by decide) m
  rw [portTypes, hselect, portTypes]

end Document

end Orchestration.Designer
