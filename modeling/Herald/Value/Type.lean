import Herald.Value.Basic

/-!
# Types of values

The types a value, a property or a parameter can have.

Every value has exactly one concrete type. Two types are wider than a concrete one: `number` takes
integers and floats, and `any` takes everything.
-/
namespace Herald

/-- The type of a value, a property or a parameter. -/
inductive ValueType where
  | any | null | bool | number | integer | float | string | array | object
  deriving DecidableEq, Repr, Inhabited

namespace ValueType

/-- Every type, in the order in which they are listed. -/
def all : List ValueType :=
  [any, null, bool, number, integer, float, string, array, object]

/-- The name under which a type is written. -/
def name : ValueType → String
  | any => "any"
  | null => "null"
  | bool => "bool"
  | number => "number"
  | integer => "integer"
  | float => "float"
  | string => "string"
  | array => "array"
  | object => "object"

/-- The type of a name, if there is one. -/
def ofName? (s : String) : Option ValueType := all.find? fun t => t.name = s

def of : Value → ValueType
  | .null => null
  | .bool _ => bool
  | .integer _ => integer
  | .float _ => float
  | .string _ => string
  | .array _ => array
  | .object _ => object

/-- Whether what has type `source` can stand where `target` is asked for. -/
def isAssignableFrom (target source : ValueType) : Bool :=
  match target with
  | any => true
  | number => source = number || source = integer || source = float
  | _ => target = source

/-- Whether a value can stand where the type is asked for. -/
def accepts (t : ValueType) (v : Value) : Bool := t.isAssignableFrom (of v)

theorem mem_all (t : ValueType) : t ∈ all := by cases t <;> decide

theorem ofName?_name (t : ValueType) : ofName? t.name = some t := by cases t <;> decide

end ValueType
end Herald
