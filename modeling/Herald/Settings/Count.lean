import Herald.Text.Blank
import Herald.Text.Digits

/-!
# Counts in text

A count is a whole number of 64 bits. It is written in ASCII digits, with at most one plus sign
before them. Digits are read from the left, and the first thing that goes wrong is what is reported:
a character that is no digit, or a number that has grown beyond 64 bits.
-/
namespace Herald

/-- Why a text is no count. -/
inductive CountFault where
  | empty
  | invalidDigit
  | tooLarge
  deriving DecidableEq, Repr

namespace CountFault

def message : CountFault → String
  | empty => "cannot parse integer from empty string"
  | invalidDigit => "invalid digit found in string"
  | tooLarge => "number too large to fit in target type"

end CountFault

namespace Count

/-- One more than the greatest count. -/
def limit : Nat := UInt64.size

/-- The count so far, extended by the digits that follow. -/
def readDigits (soFar : Nat) : List Char → Except CountFault Nat
  | [] => .ok soFar
  | c :: rest =>
    if c.isDigit then
      let next := 10 * soFar + Text.digitValue c
      if next < limit then readDigits next rest else .error .tooLarge
    else .error .invalidDigit

def ofChars (cs : List Char) : Except CountFault UInt64 :=
  match cs with
  | [] => .error .empty
  | ['+'] => .error .invalidDigit
  | '+' :: rest => (readDigits 0 rest).map UInt64.ofNat
  | _ => (readDigits 0 cs).map UInt64.ofNat

/-- The count that a text stands for, blanks around it apart. -/
def ofText (s : String) : Except CountFault UInt64 := ofChars (Text.trimChars s.toList)

end Count
end Herald
