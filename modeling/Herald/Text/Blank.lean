/-!
# Blank characters

A character is blank when it has the Unicode property White_Space. The property is wider than ASCII
blanks (the no-break space and the ideographic space are blank) and narrower than "invisible" (the
zero-width space and the byte-order mark are not).
-/
namespace Herald.Text

/-- Whether the code point of `c` lies in one of the ranges, both ends included. -/
def within (ranges : List (Nat × Nat)) (c : Char) : Bool :=
  ranges.any fun r => decide (r.1 ≤ c.toNat) && decide (c.toNat ≤ r.2)

/-- The code points with the property White_Space. -/
def blankRanges : List (Nat × Nat) :=
  [(0x09, 0x0D), (0x20, 0x20), (0x85, 0x85), (0xA0, 0xA0), (0x1680, 0x1680), (0x2000, 0x200A),
   (0x2028, 0x2029), (0x202F, 0x202F), (0x205F, 0x205F), (0x3000, 0x3000)]

/-- Whether a character is blank. -/
def isBlank (c : Char) : Bool := within blankRanges c

/-- The characters without the blanks at either end. -/
def trimChars (cs : List Char) : List Char :=
  ((cs.dropWhile isBlank).reverse.dropWhile isBlank).reverse

/-- The text without the blanks at either end. -/
def trim (s : String) : String := String.ofList (trimChars s.toList)

/-- Whether nothing is left of the text but its blanks. -/
def isAllBlank (s : String) : Bool := (trimChars s.toList).isEmpty

theorem toList_trim (s : String) : (trim s).toList = trimChars s.toList := by
  simp [trim]

end Herald.Text
