/-!
# Characters with positions

The characters of a YAML text with their positions.

Line ends are made one before positions are given: a carriage return, with or without a line feed,
and a next-line character count as a line feed. The line and paragraph separators end lines as well
and stay what they are. A text with a control character in it is no YAML.
-/
namespace Herald.Yaml

/-- A character with its line and column, and the number of bytes before it. -/
structure Glyph where
  char : Char
  line : Nat
  column : Nat
  offset : Nat

def isBreak (c : Char) : Bool := c == '\n' || c == '\u2028' || c == '\u2029'

/-- Whether a character separates words within a line. -/
def isSpace (c : Char) : Bool := c == ' ' || c == '\t'

/-- Whether a character may occur in a text at all. -/
def isAllowed (c : Char) : Bool :=
  let n := c.toNat
  n == 0x09 || n == 0x0A || n == 0x0D || n == 0x85
    || (decide (0x20 ≤ n) && decide (n ≤ 0x7E)) || (decide (0xA0 ≤ n) && decide (n ≤ 0xD7FF))
    || (decide (0xE000 ≤ n) && decide (n ≤ 0xFFFD)) || decide (0x10000 ≤ n)

/-- The characters with all line ends alike. -/
def unifyBreaks : List Char → List Char
  | [] => []
  | '\r' :: '\n' :: rest => '\n' :: unifyBreaks rest
  | c :: rest => (if c == '\r' || c == '\u0085' then '\n' else c) :: unifyBreaks rest

/-- The characters with their positions, from a given position on. -/
def placeFrom (line column offset : Nat) : List Char → List Glyph
  | [] => []
  | c :: rest =>
    ⟨c, line, column, offset⟩ ::
      if isBreak c then placeFrom (line + 1) 0 (offset + c.utf8Size) rest
      else placeFrom line (column + 1) (offset + c.utf8Size) rest

/-- The characters of a text with their positions, if all of them may occur. -/
def glyphsOf (text : String) : Option (List Glyph) :=
  if text.toList.all isAllowed then some (placeFrom 0 0 0 (unifyBreaks text.toList)) else none

/-- Whether a byte-order mark begins a line here. It takes up a column, and says nothing. -/
def isOrderMark (g : Glyph) : Bool := g.column == 0 && g.char == '\ufeff'

/-- Whether a word ends here: at a space, at a line end or at the end of the text. -/
def endsWord : List Glyph → Bool
  | [] => true
  | g :: _ => isSpace g.char || isBreak g.char

/-- Whether the text goes on with this character. -/
def startsWith (c : Char) : List Glyph → Bool
  | [] => false
  | g :: _ => g.char == c

/-- Whether a marker of the start or the end of a document is here, at the start of a line. -/
def isMarker (c : Char) (gs : List Glyph) : Bool :=
  match gs with
  | a :: b :: d :: rest =>
    a.column == 0 && a.char == c && b.char == c && d.char == c && endsWord rest
  | _ => false

/-- Whether any marker of a document is here. -/
def isAnyMarker (gs : List Glyph) : Bool := isMarker '-' gs || isMarker '.' gs

/-- Whether the character can be part of the name of an anchor, a handle or a directive. -/
def isNameChar (c : Char) : Bool := c.isAlphanum || c == '-' || c == '_'

/-- The characters of the longest run that passes a test, and what follows the run. -/
def span (passes : Char → Bool) (gs : List Glyph) : List Char × List Glyph :=
  ((gs.takeWhile fun g => passes g.char).map Glyph.char, gs.dropWhile fun g => passes g.char)

end Herald.Yaml
