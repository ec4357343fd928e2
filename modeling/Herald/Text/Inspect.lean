import Herald.Text.Quoted

/-!
# Inspection texts

An inspection text shows a value on one line for a person who is looking for a fault: a record by
its name and its named fields, a case by its name and its contents, a list between brackets.
-/
namespace Herald.Text

/-- A case with its contents, such as `Origin("web")`. -/
def caseText (name : String) (contents : List String) : String :=
  name ++ "(" ++ ", ".intercalate contents ++ ")"

/-- A record with its fields, such as `Point { x: 1, y: 2 }`. -/
def recordText (name : String) (fields : List (String × String)) : String :=
  name ++ " \x7b " ++ ", ".intercalate (fields.map fun f => f.1 ++ ": " ++ f.2) ++ " \x7d"

/-- A list, such as `[1, 2]`. -/
def listText (items : List String) : String := "[" ++ ", ".intercalate items ++ "]"

/-- A set or a table, its entries between braces. -/
def bracesText (entries : List String) : String := "\x7b" ++ ", ".intercalate entries ++ "\x7d"

def boolText (b : Bool) : String := if b then "true" else "false"

end Herald.Text
