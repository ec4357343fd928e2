import Herald.Text.Digits
import Herald.Yaml.Glyph

/-!
# Scalars

A scalar that is not a block may run over several lines. Its words keep the spaces between them; a
line end among the spaces makes them a single space, and each further line end is a line end of the
text. A block takes its lines as they stand, less their indentation; a folded block joins lines that
begin with a word.
-/
namespace Herald.Yaml

/-- How a scalar is written. -/
inductive ScalarStyle where
  | plain | quoted | literal | folded
  deriving DecidableEq, Repr

/-- What stands between two words of a scalar. -/
inductive Gap where
  /-- spaces within a line -/
  | spaces (run : List Char)
  /-- line ends; spaces beside them do not count -/
  | lines (first : Char) (more : List Char)
  /-- line ends the first of which is escaped, and so does not count itself -/
  | joined (more : List Char)

namespace Gap

def none : Gap := spaces []

def isBroken : Gap → Bool
  | spaces _ => false
  | _ => true

def isEmpty : Gap → Bool
  | spaces [] => true
  | _ => false

def addSpace (c : Char) : Gap → Gap
  | spaces run => spaces (run ++ [c])
  | gap => gap

def addBreak (c : Char) : Gap → Gap
  | spaces _ => lines c []
  | lines first more => lines first (more ++ [c])
  | joined more => joined (more ++ [c])

def text : Gap → List Char
  | spaces run => run
  | lines '\n' [] => [' ']
  | lines '\n' more => more
  | lines first more => first :: more
  | joined more => more

end Gap

/-- The indicators of flow collections that end a plain scalar within one. -/
def isFlowIndicator (c : Char) : Bool :=
  c == ',' || c == '[' || c == ']' || c == '\x7b' || c == '\x7d'

/-- A scalar that has been read: its characters, what follows, and whether a line ended last. -/
structure ScalarRead where
  chars : List Char
  rest : List Glyph
  broken : Bool

/-- Whether a plain scalar ends before the first of these characters. -/
def endsPlain (inFlow : Bool) (indent : Int) (gap : Gap) : List Glyph → Bool
  | [] => true
  | g :: rest =>
    (!gap.isEmpty && g.char == '#')
      || (gap.isBroken
        && ((!inFlow && decide ((g.column : Int) < indent)) || isAnyMarker (g :: rest)))
      || (g.char == ':' && endsWord rest)
      || (inFlow && isFlowIndicator g.char)

/-- A plain scalar, word by word. Within a flow collection a colon must not touch an indicator, and
no tab may indent a line. -/
def readPlain (inFlow : Bool) (indent : Int) (done : List Char) (gap : Gap) :
    List Glyph → Option ScalarRead
  | [] => some ⟨done.reverse, [], gap.isBroken⟩
  | g :: rest =>
    if isSpace g.char then
      if gap.isBroken && g.char == '\t' && decide ((g.column : Int) < indent) then none
      else readPlain inFlow indent done (gap.addSpace g.char) rest
    else if isBreak g.char then readPlain inFlow indent done (gap.addBreak g.char) rest
    else if endsPlain inFlow indent gap (g :: rest) then
      some ⟨done.reverse, g :: rest, gap.isBroken⟩
    else if inFlow && g.char == ':' &&
        (rest.head?.any fun next => isFlowIndicator next.char || next.char == '?') then none
    else readPlain inFlow indent (g.char :: (gap.text.reverse ++ done)) Gap.none rest

/-- A scalar between single quotes, after the first of them. A quote inside is written twice. -/
def readSingle (done : List Char) (gap : Gap) : List Glyph → Option ScalarRead
  | [] => none
  | g :: rest =>
    if isSpace g.char then readSingle done (gap.addSpace g.char) rest
    else if isBreak g.char then readSingle done (gap.addBreak g.char) rest
    else if isAnyMarker (g :: rest) then none
    else if g.char == '\'' then
      match rest with
      | h :: more =>
        if h.char == '\'' then readSingle ('\'' :: (gap.text.reverse ++ done)) Gap.none more
        else some ⟨(gap.text.reverse ++ done).reverse, h :: more, false⟩
      | [] => some ⟨(gap.text.reverse ++ done).reverse, [], false⟩
    else readSingle (g.char :: (gap.text.reverse ++ done)) Gap.none rest

/-- How far an escape has been read. -/
inductive Escape where
  | none
  | begun
  | hex (left value : Nat)

/-- The character that an escape letter stands for. -/
def escapedChar? : Char → Option Char
  | '0' => some '\x00'
  | 'a' => some '\x07'
  | 'b' => some '\x08'
  | 't' => some '\t'
  | '\t' => some '\t'
  | 'n' => some '\n'
  | 'v' => some '\x0b'
  | 'f' => some '\x0c'
  | 'r' => some '\r'
  | 'e' => some '\x1b'
  | ' ' => some ' '
  | '"' => some '"'
  | '/' => some '/'
  | '\\' => some '\\'
  | 'N' => some '\u0085'
  | '_' => some '\u00a0'
  | 'L' => some '\u2028'
  | 'P' => some '\u2029'
  | _ => none

/-- How many hexadecimal digits follow an escape letter. -/
def escapeDigits? : Char → Option Nat
  | 'x' => some 2
  | 'u' => some 4
  | 'U' => some 8
  | _ => none

/-- Whether a number is that of a character. -/
def isCodePoint (n : Nat) : Bool :=
  decide (n < 0xD800) || (decide (0xE000 ≤ n) && decide (n < 0x110000))

/-- A scalar between double quotes, after the first of them. -/
def readDouble (done : List Char) (gap : Gap) (escape : Escape) : List Glyph → Option ScalarRead
  | [] => none
  | g :: rest =>
    match escape with
    | .hex left value =>
      match Text.hexValue? g.char with
      | none => none
      | some digit =>
        let value := 16 * value + digit
        if 1 < left then readDouble done gap (.hex (left - 1) value) rest
        else if isCodePoint value then readDouble (Char.ofNat value :: done) gap .none rest
        else none
    | .begun =>
      -- An escaped line end joins the lines without a space.
      if isBreak g.char then readDouble done (.joined []) .none rest
      else
        match escapedChar? g.char, escapeDigits? g.char with
        | some c, _ => readDouble (c :: done) gap .none rest
        | none, some digits => readDouble done gap (.hex digits 0) rest
        | none, none => none
    | .none =>
      if isSpace g.char then readDouble done (gap.addSpace g.char) .none rest
      else if isBreak g.char then readDouble done (gap.addBreak g.char) .none rest
      else if isAnyMarker (g :: rest) then none
      else
        let done := gap.text.reverse ++ done
        if g.char == '"' then some ⟨done.reverse, rest, false⟩
        else if g.char == '\\' then readDouble done Gap.none .begun rest
        else readDouble (g.char :: done) Gap.none .none rest

/-- What becomes of the line ends after the last line of a block. -/
inductive Chomp where
  | strip | clip | keep
  deriving DecidableEq

/-- What the header of a block says: its chomping, and its indentation where that is given. -/
structure BlockHeader where
  chomp : Chomp
  indentation : Option Nat

/-- The header of a block, after its indicator: up to two signs, in either order. -/
def readHeader (chomp : Option Chomp) (indentation : Option Nat) :
    List Glyph → Option (BlockHeader × List Glyph)
  | [] => some (⟨chomp.getD .clip, indentation⟩, [])
  | g :: rest =>
    if g.char == '+' && chomp.isNone then readHeader (some .keep) indentation rest
    else if g.char == '-' && chomp.isNone then readHeader (some .strip) indentation rest
    else if g.char.isDigit && indentation.isNone then
      if g.char == '0' then none
      else readHeader chomp (some (Text.digitValue g.char)) rest
    else some (⟨chomp.getD .clip, indentation⟩, g :: rest)

/-- What follows the line of a block's header, on which only a comment may stand. -/
def afterHeader (gs : List Glyph) : Option (List Glyph) :=
  let gs := gs.dropWhile fun g => isSpace g.char
  let gs := if startsWith '#' gs then gs.dropWhile fun g => !isBreak g.char else gs
  match gs with
  | [] => some []
  | g :: rest => if isBreak g.char then some rest else none

/-- A line: its characters and what ends it. -/
structure Line where
  glyphs : List Glyph
  ending : Option Glyph

def linesOf : List Glyph → List Line
  | [] => []
  | g :: rest =>
    if isBreak g.char then ⟨[], some g⟩ :: linesOf rest
    else
      match linesOf rest with
      | [] => [⟨[g], none⟩]
      | l :: more => ⟨g :: l.glyphs, l.ending⟩ :: more

def ofLines (ls : List Line) : List Glyph := ls.flatMap fun l => l.glyphs ++ l.ending.toList

/-- The indentation of a block that gives none: that of its first line with a word, or more if an
empty line before it goes further. No tab may stand in its place. -/
def detectIndent (widest : Nat) : List Line → Option Nat
  | [] => some widest
  | l :: ls =>
    let spaces := (l.glyphs.takeWhile fun g => g.char == ' ').length
    let widest := max widest spaces
    match l.glyphs.drop spaces with
    | g :: _ => if g.char == '\t' then none else some widest
    | [] => if l.ending.isSome then detectIndent widest ls else some widest

/-- A block that is being read: its text so far, backwards, the end of its last line, the empty
lines since, and whether that last line began with a space. -/
structure BlockText where
  done : List Char
  lastBreak : Option Char
  emptyLines : List Char
  startedBlank : Bool

/-- The text before the next line of a block. In a folded block a line end between two lines that
begin with words is a space, and none at all where empty lines follow. -/
def BlockText.beforeLine (t : BlockText) (folds startsBlank : Bool) : List Char :=
  let ending :=
    if folds && t.lastBreak == some '\n' && !t.startedBlank && !startsBlank then
      if t.emptyLines.isEmpty then [' '] else []
    else t.lastBreak.toList
  ending ++ t.emptyLines

def BlockText.finish (t : BlockText) (chomp : Chomp) : List Char :=
  t.done.reverse ++
    match chomp with
    | .strip => []
    | .clip => t.lastBreak.toList
    | .keep => t.lastBreak.toList ++ t.emptyLines

/-- The lines of a block with a given indentation, up to the first that is indented less. -/
def readLines (folds : Bool) (chomp : Chomp) (indent : Nat) (t : BlockText) :
    List Line → Option ScalarRead
  | [] => some ⟨t.finish chomp, [], true⟩
  | l :: ls =>
    let body := l.glyphs.dropWhile fun g => g.char == ' ' && decide (g.column < indent)
    match body with
    | [] =>
      match l.ending with
      | some g =>
        readLines folds chomp indent { t with emptyLines := t.emptyLines ++ [g.char] } ls
      | none => some ⟨t.finish chomp, [], true⟩
    | g :: _ =>
      -- What is indented less does not belong to the block, and a tab is no indentation.
      if g.column < indent then
        if g.char == '\t' then none
        else some ⟨t.finish chomp, ofLines (⟨body, l.ending⟩ :: ls), true⟩
      else
        let text := t.beforeLine folds (isSpace g.char) ++ body.map Glyph.char
        readLines folds chomp indent
          ⟨text.reverse ++ t.done, l.ending.map Glyph.char, [], isSpace g.char⟩ ls

/-- A block, after its indicator, within a given indentation. -/
def readBlock (folds : Bool) (parentIndent : Int) (gs : List Glyph) : Option ScalarRead := do
  let (header, rest) ← readHeader none none gs
  let rest ← afterHeader rest
  let lines := linesOf rest
  let indent ← match header.indentation with
    | some n => some (n + parentIndent.toNat)
    | none => (detectIndent 0 lines).map fun widest => max widest (max (parentIndent + 1).toNat 1)
  readLines folds header.chomp indent ⟨[], none, [], false⟩ lines

end Herald.Yaml
