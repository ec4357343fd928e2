import Herald.Text.Digits
import Herald.Text.Unshown

/-!
# Quoted text

Text between double quotes, as the inspection texts show it.

Quotes and backslashes are escaped by a backslash, four controls have a letter, and what cannot be
seen is named by its code point in hexadecimal, between braces.
-/
namespace Herald.Text

/-- One character as it stands between the quotes. -/
def escapeChar (c : Char) : List Char :=
  match c with
  | '\x00' => ['\\', '0']
  | '\t' => ['\\', 't']
  | '\n' => ['\\', 'n']
  | '\r' => ['\\', 'r']
  | '"' => ['\\', '"']
  | '\\' => ['\\', '\\']
  | _ => if isUnshown c then ['\\', 'u', '\x7b'] ++ hexDigits c.toNat ++ ['\x7d'] else [c]

def quoted (s : String) : String :=
  String.ofList ('"' :: s.toList.flatMap escapeChar ++ ['"'])

end Herald.Text
