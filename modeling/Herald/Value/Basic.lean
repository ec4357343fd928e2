import Herald.Decimal.Double

/-!
# Values

The values that events carry and listeners return.

A value is JSON with one distinction more: a number is an integer or a float, and stays what it was.
The fields of an object are listed by ascending key, each key once; `Value.ofFields` brings any list
of fields into that form, and the last field of a key is the one that counts.
-/
namespace Herald

/-- A value: JSON, with integers and floats kept apart. -/
inductive Value where
  | null
  | bool (b : Bool)
  | integer (n : Int)
  | float (x : Double)
  | string (s : String)
  | array (items : List Value)
  | object (fields : List (String × Value))
  deriving Inhabited, Repr

namespace Value

/-- The fields with one more, in its place by key and instead of any field of the same key. -/
def putField (key : String) (value : Value) : List (String × Value) → List (String × Value)
  | [] => [(key, value)]
  | (k, v) :: rest =>
    if key < k then (key, value) :: (k, v) :: rest
    else if key = k then (key, value) :: rest
    else (k, v) :: putField key value rest

/-- The object of these fields, by ascending key; a later field of a key replaces an earlier one. -/
def ofFields (fields : List (String × Value)) : Value :=
  .object (fields.foldl (fun kept f => putField f.1 f.2 kept) [])

/-- The value of a field, if the value is an object that has it. -/
def field? (v : Value) (key : String) : Option Value :=
  match v with
  | .object fields => fields.lookup key
  | _ => none

/-- The object whose only field has the value null and this key. -/
def bareKey? (v : Value) : Option String :=
  match v with
  | .object [(key, .null)] => some key
  | _ => none

/-- The least and the greatest whole number that is held as an integer. -/
def integerBounds : Int × Int := (-9223372036854775808, 18446744073709551615)

/-- Whether a whole number is held as an integer; beyond the bounds it is held as a float. -/
def isIntegerSize (n : Int) : Bool :=
  decide (integerBounds.1 ≤ n) && decide (n ≤ integerBounds.2)

end Value
end Herald
