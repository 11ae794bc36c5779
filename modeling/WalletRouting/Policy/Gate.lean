import WalletRouting.Policy.Field
import WalletRouting.Policy.Snippet
import WalletRouting.Policy.Validity

/-! # Target gates

An action may apply only to instruments one of whose traits has a given value, or lies within a
bound. An action without a target property applies to all.
-/
namespace WalletRouting
set_option autoImplicit false

namespace Instrument

/-- Traits that every instrument has and in which none differs from another. -/
def sharedTraits : Keyed Value :=
  [("model_extra", .null), ("model_config", .object []), ("model_computed_fields", .object []),
   ("__module__", .text "stop_engine.schemas.transaction"), ("__hash__", .null), ("__weakref__", .null),
   ("__private_attributes__", .object []), ("__pydantic_complete__", .bool true),
   ("__pydantic_computed_fields__", .object []), ("__pydantic_custom_init__", .bool false),
   ("__pydantic_extra__", .null), ("__pydantic_parent_namespace__", .null), ("__pydantic_post_init__", .null),
   ("__pydantic_private__", .null), ("__pydantic_root_model__", .bool false),
   ("__pydantic_setattr_handlers__", .object [])]

/-- Traits by which an instrument tells of what kind it is. -/
def kindTraits : Instrument → Keyed Value
  | .card _ =>
    [("is_routing", .bool false), ("__doc__", .null),
     ("__annotations__", .object [("type", .text "Literal['credit', 'debit', 'prepaid']")])]
  | .router r =>
    [("is_routing", .bool true), ("routing_strategy", .text r.strategy.name),
     ("__doc__", .text "A DRT: resolves to one of its child credentials per transaction."),
     ("__annotations__", .object
       [("type", .text "Literal['routing']"), ("children", .text "list[Credential]"),
        ("routing_strategy", .text "RoutingStrategy")])]

/-- Stands for a trait that is there and equals nothing. -/
def incomparable : Value := .float (0.0 / 0.0)

/-- Children equal a list only when both are empty. -/
def childrenTrait : Instrument → Keyed Value
  | .card _ => []
  | .router r => [("children", if r.children.isEmpty then .list [] else incomparable)]

def fieldValue : Reading → Value
  | .value v => v
  | _ => incomparable

def allFields (i : Instrument) : Value := .object
  (InstrumentField.named.map (fun (name, f) => (name, fieldValue (f.reading i))) ++ i.childrenTrait ++
    (i.kindTraits.filter fun (name, _) => name = "routing_strategy"))

/-- A trait by name: a field, one that all instruments share, or one that its kind has. -/
def trait (i : Instrument) (name : String) : Reading :=
  match InstrumentField.named.get? name, (sharedTraits ++ i.kindTraits ++ i.childrenTrait).get? name with
  | some f, _ => f.reading i
  | none, some v => .value v
  | none, none => if name = "__dict__" then .value i.allFields else .missing

end Instrument

namespace Action

def meets (r : Reading) (bound : Value) : Bool :=
  match r with
  | .missing => false
  | r =>
    match bound with
    | .object members =>
      match Bound.first? members with
      | some (b, limit) => b.operator.orders r.number? (Reading.value limit).number?
      | none => r.equals (.object members)
    | v => r.equals v

def targets (a : Action) (i : Instrument) : Bool :=
  match a.property with
  | some p => if p = "" then true else meets (i.trait p) a.propertyValue
  | none => true

end Action

end WalletRouting
