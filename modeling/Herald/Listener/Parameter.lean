import Herald.EventType
import Herald.Value.Type

/-!
# Parameters

The parameters that a listener declares.

A parameter takes the event itself, or a property of the event: its value, or the property of a
value type, which is looked up like the value. How it is looked up and what becomes of a property
that is not there is part of the declaration.
-/
namespace Herald

def ValueType.inspect : ValueType → String
  | .any => "Any"
  | .null => "Null"
  | .bool => "Bool"
  | .number => "Number"
  | .integer => "Integer"
  | .float => "Float"
  | .string => "String"
  | .array => "Array"
  | .object => "Object"

/-- What a parameter takes. -/
inductive ParameterType where
  /-- the event, declared with a type of event -/
  | event (type : EventType)
  /-- the value of a property -/
  | value (type : ValueType)
  /-- a property with a value of this type -/
  | property (type : ValueType)

namespace ParameterType

/-- The type under which a property is looked up; the event is not looked up at all. -/
def lookupType? : ParameterType → Option ValueType
  | event _ => none
  | value type => some type
  | property type => some type

/-- The inspection text of what a parameter takes. -/
def inspect : ParameterType → String
  | event type => Text.caseText "Event" [type.inspect]
  | value type => Text.caseText "Value" [type.inspect]
  | property type => Text.caseText "Property" [type.inspect]

end ParameterType

/-- A declared parameter. -/
structure Parameter where
  name : String
  type : ParameterType
  /-- whether the listener runs without the property -/
  optional : Bool
  /-- whether a property of a narrower type will do -/
  byAssignability : Bool
  /-- whether the argument says if the property was there -/
  wrapped : Bool

namespace Parameter

/-- A parameter that needs a property of exactly its type. -/
def ofType (name : String) (type : ParameterType) : Parameter :=
  ⟨name, type, false, false, false⟩

/-- The parameter, which the listener can now do without. -/
def makeOptional (p : Parameter) : Parameter := { p with optional := true }

/-- The parameter, whose argument now says if the property was there; it is optional with that. -/
def makeWrapped (p : Parameter) : Parameter := { p with wrapped := true, optional := true }

/-- The parameter, for which a property of a narrower type now does. -/
def makeAssignable (p : Parameter) : Parameter := { p with byAssignability := true }

def inspect (p : Parameter) : String :=
  Text.recordText "ParameterSpec" [
    ("name", Text.quoted p.name),
    ("declared_type", p.type.inspect),
    ("optional", Text.boolText p.optional),
    ("lookup_by_assignability", Text.boolText p.byAssignability),
    ("wrapped", Text.boolText p.wrapped)]

end Parameter
end Herald
