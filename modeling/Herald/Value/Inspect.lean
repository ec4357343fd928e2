import Herald.Decimal.Shortest
import Herald.Text.Inspect
import Herald.Value.Basic

/-!
# Inspection texts of values

The inspection text of a value names its kind along with what it holds.
-/
namespace Herald.Value

mutual

def inspect : Value → String
  | .null => "Null"
  | .bool b => Text.caseText "Bool" [Text.boolText b]
  | .integer n => Text.caseText "Number" [toString n]
  | .float x => Text.caseText "Number" [x.toText]
  | .string s => Text.caseText "String" [Text.quoted s]
  | .array items => "Array " ++ Text.listText (inspectItems items)
  | .object fields => "Object " ++ Text.bracesText (inspectFields fields)

/-- The inspection texts of the items of an array. -/
def inspectItems : List Value → List String
  | [] => []
  | v :: rest => v.inspect :: inspectItems rest

/-- The inspection texts of the fields of an object. -/
def inspectFields : List (String × Value) → List String
  | [] => []
  | (key, v) :: rest => (Text.quoted key ++ ": " ++ v.inspect) :: inspectFields rest

end

end Herald.Value
