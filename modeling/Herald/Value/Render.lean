import Herald.Value.Basic
import Herald.Decimal.Shortest
import Herald.Text.Quoted

/-!
# Writing JSON

A value is written as one line of JSON. Integers are written in full and floats by their shortest
decimal text, so a reader can tell which is which. Only quotes, backslashes and controls are
escaped.
-/
namespace Herald.Value

/-- A code point as four hexadecimal digits. -/
def fourHex (n : Nat) : List Char :=
  let digits := Text.hexDigits n
  List.replicate (4 - digits.length) '0' ++ digits

def renderChar (c : Char) : List Char :=
  match c with
  | '"' => ['\\', '"']
  | '\\' => ['\\', '\\']
  | '\n' => ['\\', 'n']
  | '\r' => ['\\', 'r']
  | '\t' => ['\\', 't']
  | _ => if c.toNat < 0x20 then '\\' :: 'u' :: fourHex c.toNat else [c]

def renderString (s : String) : String :=
  String.ofList ('"' :: s.toList.flatMap renderChar ++ ['"'])

mutual

def render : Value → String
  | .null => "null"
  | .bool true => "true"
  | .bool false => "false"
  | .integer n => toString n
  | .float x => x.toText
  | .string s => renderString s
  | .array items => "[" ++ ",".intercalate (renderItems items) ++ "]"
  | .object fields => "\x7b" ++ ",".intercalate (renderFields fields) ++ "\x7d"

/-- The JSON texts of the items of an array. -/
def renderItems : List Value → List String
  | [] => []
  | v :: rest => v.render :: renderItems rest

/-- The JSON texts of the fields of an object. -/
def renderFields : List (String × Value) → List String
  | [] => []
  | (key, v) :: rest => (renderString key ++ ":" ++ v.render) :: renderFields rest

end

end Herald.Value
