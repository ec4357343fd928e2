import Herald.Yaml.Scalar

/-!
# Tokens

Indentation is made explicit: a token marks where a block collection begins, and another where it
ends. A key needs no mark of its own in the text, so the mark for it is put in once the colon after
it is found. Such a key must end on its line and within 1024 bytes; where a key is the only
thing that can stand at a place, its colon must not be missing.
-/
namespace Herald.Yaml

/-- A tag, by its bytes. -/
abbrev Tag := List UInt8

def Tag.ofText (text : String) : Tag := text.toUTF8.toList

/-- The tag that is an exclamation mark alone. -/
def bareTag : Tag := Tag.ofText "!"

/-- A token. -/
inductive Token where
  | version (major minor : Nat)
  | handle (name : String) (stem : Tag)
  | documentStart
  | documentEnd
  | blockSequenceStart
  | blockMappingStart
  | blockEnd
  | flowSequenceStart
  | flowSequenceEnd
  | flowMappingStart
  | flowMappingEnd
  | blockEntry
  | flowEntry
  | key
  | value
  | alias (name : String)
  | anchor (name : String)
  | tag (handle : String) (suffix : Tag)
  | scalar (text : String) (style : ScalarStyle)
  deriving DecidableEq, Repr

/-- A place where a key may have begun. -/
structure KeyMark where
  /-- whether nothing but a key can stand there -/
  required : Bool
  /-- how many tokens come before it -/
  position : Nat
  line : Nat
  column : Nat
  offset : Nat

/-- The tokens so far, and what the meaning of the next characters depends on. -/
structure Lexing where
  tokens : Array Token
  /-- the column of the innermost block collection, or -1 outside of all -/
  indent : Int
  /-- the columns of the block collections around it -/
  outer : List Int
  /-- whether a key may begin here -/
  keyAllowed : Bool
  /-- the key that may have begun, for the block and for each open flow collection, innermost
  first -/
  marks : List (Option KeyMark)

namespace Lexing

/-- The state at the start of a text. -/
def initial : Lexing := ⟨#[], -1, [], true, [none]⟩

def inFlow (s : Lexing) : Bool := decide (1 < s.marks.length)

def push (s : Lexing) (t : Token) : Lexing := { s with tokens := s.tokens.push t }

/-- The state with one more token at a place among those there are. -/
def insertAt (s : Lexing) (position : Nat) (t : Token) : Lexing :=
  { s with
    tokens := (s.tokens.extract 0 position).push t ++ s.tokens.extract position s.tokens.size }

/-- Close the block collections that are indented further than a column. -/
def closeTo (column : Int) (tokens : Array Token) (indent : Int) :
    List Int → Array Token × Int × List Int
  | [] => (tokens, indent, [])
  | next :: rest =>
    if column < indent then closeTo column (tokens.push .blockEnd) next rest
    else (tokens, indent, next :: rest)

/-- Leave the block collections that are indented further than a column; within a flow collection
indentation means nothing. -/
def unindent (s : Lexing) (column : Int) : Lexing :=
  if s.inFlow then s
  else
    let (tokens, indent, outer) := closeTo column s.tokens s.indent s.outer
    { s with tokens, indent, outer }

/-- Enter a block collection at a column, unless the innermost one is there already. -/
def indentTo (s : Lexing) (column : Nat) (position : Nat) (start : Token) : Lexing :=
  if s.inFlow || decide ((column : Int) ≤ s.indent) then s
  else { s.insertAt position start with indent := column, outer := s.indent :: s.outer }

/-- Give up the keys that can have no colon any more; a required one must not be given up. -/
def dropStale (s : Lexing) (line offset : Nat) : Option Lexing := do
  let marks ← s.marks.mapM fun mark =>
    match mark with
    | some m =>
      if m.line < line || m.offset + 1024 < offset then
        if m.required then none else some none
      else some (some m)
    | none => some none
  pure { s with marks }

/-- Give up the key of the innermost collection, which must not be required. -/
def dropKey (s : Lexing) : Option Lexing :=
  match s.marks with
  | some m :: rest => if m.required then none else some { s with marks := none :: rest }
  | _ => some s

/-- Note that a key may begin at a character. -/
def markKey (s : Lexing) (g : Glyph) : Option Lexing :=
  if s.keyAllowed then do
    let s ← s.dropKey
    -- At the very column of a block mapping nothing but a key can begin.
    let required := !s.inFlow && s.indent == g.column
    let mark : KeyMark := ⟨required, s.tokens.size, g.line, g.column, g.offset⟩
    pure { s with marks := some mark :: s.marks.drop 1 }
  else some s

/-- Say whether a key may begin next. -/
def allowKey (s : Lexing) (allowed : Bool) : Lexing := { s with keyAllowed := allowed }

def openFlow (s : Lexing) (g : Glyph) (start : Token) : Option Lexing := do
  let s ← s.markKey g
  pure ({ s with marks := none :: s.marks, keyAllowed := true }.push start)

def closeFlow (s : Lexing) (finish : Token) : Option Lexing := do
  let s ← s.dropKey
  let marks := if s.inFlow then s.marks.drop 1 else s.marks
  pure ({ s with marks, keyAllowed := false }.push finish)

/-- A comma between the parts of a flow collection. -/
def nextPart (s : Lexing) : Option Lexing := do
  let s ← s.dropKey
  pure ((s.allowKey true).push .flowEntry)

/-- A dash before an entry of a sequence. -/
def nextEntry (s : Lexing) (g : Glyph) : Option Lexing := do
  if !s.inFlow && !s.keyAllowed then none
  else
    let s := s.indentTo g.column s.tokens.size .blockSequenceStart
    let s ← s.dropKey
    pure ((s.allowKey true).push .blockEntry)

def explicitKey (s : Lexing) (g : Glyph) : Option Lexing := do
  if !s.inFlow && !s.keyAllowed then none
  else
    let s := s.indentTo g.column s.tokens.size .blockMappingStart
    let s ← s.dropKey
    pure ((s.allowKey (!s.inFlow)).push .key)

/-- A colon before a value. What came before it on the line is a key, if one may have begun
there. -/
def nextValue (s : Lexing) (g : Glyph) : Option Lexing :=
  match s.marks with
  | some m :: rest =>
    -- The key goes in where it began, and the mapping it opens, if it does, in front of it.
    let s := ({ s with marks := none :: rest }.insertAt m.position .key).indentTo m.column
      m.position .blockMappingStart
    some ((s.allowKey false).push .value)
  | _ =>
    if !s.inFlow && !s.keyAllowed then none
    else
      let s := s.indentTo g.column s.tokens.size .blockMappingStart
      some ((s.allowKey (!s.inFlow)).push .value)

/-- A marker or a directive, which ends every block. -/
def endBlocks (s : Lexing) : Option Lexing := do
  let s ← (s.unindent (-1)).dropKey
  pure (s.allowKey false)

end Lexing

/-- What is to be looked at next: past spaces, comments, line ends and the byte-order marks that
begin lines. After a line end a key may begin in a block; where a key may begin, a tab is no
space. -/
def skipToToken (inFlow inComment keyAllowed : Bool) : List Glyph → List Glyph × Bool
  | [] => ([], keyAllowed)
  | g :: rest =>
    if isBreak g.char then skipToToken inFlow false (keyAllowed || !inFlow) rest
    else if inComment then skipToToken inFlow true keyAllowed rest
    else if g.char == ' ' || (g.char == '\t' && (inFlow || !keyAllowed)) || isOrderMark g then
      skipToToken inFlow false keyAllowed rest
    else if g.char == '#' then skipToToken inFlow true keyAllowed rest
    else (g :: rest, keyAllowed)

/-- The name of an anchor or an alias, after its indicator. -/
def readName (gs : List Glyph) : Option (String × List Glyph) :=
  let (name, rest) := span isNameChar gs
  let ended := endsWord rest ||
    (rest.head?.any fun g => "?:,]\x7d%@`".toList.contains g.char)
  if name.isEmpty || !ended then none else some (String.ofList name, rest)

/-- Whether a character may stand in a tag; some only between angle brackets or in directives. -/
def isTagChar (wide : Bool) (c : Char) : Bool :=
  isNameChar c || ";/?:@&=+$.%!~*'()".toList.contains c || (wide && ",[]".toList.contains c)

/-- How many bytes follow a leading byte to make up a character. -/
def followers? (lead : Nat) : Option Nat :=
  if lead < 0x80 then some 0
  else if 0xC0 ≤ lead ∧ lead < 0xE0 then some 1
  else if 0xE0 ≤ lead ∧ lead < 0xF0 then some 2
  else if 0xF0 ≤ lead ∧ lead < 0xF8 then some 3
  else none

/-- The bytes that a tag's characters stand for. A percent sign begins the code of a byte. The codes
of one character stand together; that the bytes make up a character is not asked for. -/
def tagBytes (missing : Nat) : List Char → Option (List UInt8)
  | '%' :: a :: b :: rest => do
    let byte := 16 * (← Text.hexValue? a) + (← Text.hexValue? b)
    let missing ← match missing with
      | 0 => followers? byte
      | left + 1 => if 0x80 ≤ byte ∧ byte < 0xC0 then some left else none
    let bytes ← tagBytes missing rest
    pure (UInt8.ofNat byte :: bytes)
  | '%' :: _ => none
  | c :: rest => do
    if missing ≠ 0 then none
    else
      let bytes ← tagBytes 0 rest
      pure (UInt8.ofNat c.toNat :: bytes)
  | [] => if missing = 0 then some [] else none

/-- The tag of some characters. A byte of zero ends it. -/
def tagOf (cs : List Char) : Option Tag := (tagBytes 0 cs).map fun bytes => bytes.takeWhile (· != 0)

/-- The characters of a tag that come next. -/
def readTagChars (wide : Bool) (gs : List Glyph) : Option (Tag × List Glyph) := do
  let (cs, rest) := span (isTagChar wide) gs
  if cs.isEmpty then none
  else
    let tag ← tagOf cs
    pure (tag, rest)

/-- A tag between angle brackets, after the first of them. -/
def readVerbatimTag (gs : List Glyph) : Option (Token × List Glyph) := do
  let (tag, rest) ← readTagChars true gs
  if startsWith '>' rest then pure (.tag "" tag, rest.drop 1) else none

/-- A tag with a handle, after its exclamation mark. Without a second mark the name is part of the
tag, and the first mark alone is a tag of its own. -/
def readShortTag (gs : List Glyph) : Option (Token × List Glyph) := do
  let (name, rest) := span isNameChar gs
  if startsWith '!' rest then
    let (suffix, rest) ← readTagChars false (rest.drop 1)
    pure (.tag ("!" ++ String.ofList name ++ "!") suffix, rest)
  else
    let (cs, rest) := span (isTagChar false) rest
    let suffix ← tagOf (name ++ cs)
    pure (if suffix.isEmpty then .tag "" bareTag else .tag "!" suffix, rest)

def readTag (inFlow : Bool) (gs : List Glyph) : Option (Token × List Glyph) := do
  let (tag, rest) ←
    if startsWith '<' gs then readVerbatimTag (gs.drop 1) else readShortTag gs
  if endsWord rest || (inFlow && startsWith ',' rest) then pure (tag, rest) else none

/-- The digits of a version number; there are at most nine. -/
def readVersionNumber (gs : List Glyph) : Option (Nat × List Glyph) :=
  let (digits, rest) := span Char.isDigit gs
  if digits.isEmpty || 9 < digits.length then none
  else some (Text.ofDigits digits, rest)

def readVersion (gs : List Glyph) : Option (Token × List Glyph) := do
  let (major, rest) ← readVersionNumber (gs.dropWhile fun g => isSpace g.char)
  if startsWith '.' rest then
    let (minor, rest) ← readVersionNumber (rest.drop 1)
    pure (.version major minor, rest)
  else none

/-- The rest of a directive that gives a handle its meaning. -/
def readHandle (gs : List Glyph) : Option (Token × List Glyph) := do
  let gs := gs.dropWhile fun g => isSpace g.char
  if startsWith '!' gs then
    let (name, rest) := span isNameChar (gs.drop 1)
    let closed := startsWith '!' rest
    let rest := if closed then rest.drop 1 else rest
    if !closed && !name.isEmpty then none
    else if !(rest.head?.any fun g => isSpace g.char) then none
    else
      let (stem, rest) ← readTagChars true (rest.dropWhile fun g => isSpace g.char)
      if endsWord rest then
        let handle := "!" ++ String.ofList name ++ (if closed then "!" else "")
        pure (.handle handle stem, rest)
      else none
  else none

/-- A directive, after its percent sign, with the rest of its line. -/
def readDirective (gs : List Glyph) : Option (Token × List Glyph) := do
  let (name, rest) := span isNameChar gs
  if !endsWord rest then none
  else
    let (token, rest) ←
      if name = "YAML".toList then readVersion rest
      else if name = "TAG".toList then readHandle rest
      else none
    let rest ← afterHeader rest
    pure (token, rest)

def beginsPlain (inFlow : Bool) (g : Glyph) (rest : List Glyph) : Bool :=
  !("-?:,[]\x7b\x7d#&*!|>'\"%@`".toList.contains g.char || isSpace g.char)
    || (g.char == '-' && !(rest.head?.any fun next => isSpace next.char))
    || (!inFlow && (g.char == '?' || g.char == ':') && !endsWord rest)

/-- Take in a scalar that has been read. -/
def Lexing.takeScalar (s : Lexing) (style : ScalarStyle) (read : ScalarRead) :
    Lexing × List Glyph :=
  (s.push (.scalar (String.ofList read.chars) style), read.rest)

/-- Take in the token that begins at a character. -/
def Lexing.step (s : Lexing) (g : Glyph) (rest : List Glyph) : Option (Lexing × List Glyph) := do
  let s ← s.dropStale g.line g.offset
  let s := s.unindent g.column
  if g.column == 0 && g.char == '%' then
    let s ← s.endBlocks
    let (token, rest) ← readDirective rest
    pure (s.push token, rest)
  else if isMarker '-' (g :: rest) then
    let s ← s.endBlocks
    pure (s.push .documentStart, rest.drop 2)
  else if isMarker '.' (g :: rest) then
    let s ← s.endBlocks
    pure (s.push .documentEnd, rest.drop 2)
  else if g.char == '[' then pure (← s.openFlow g .flowSequenceStart, rest)
  else if g.char == '\x7b' then pure (← s.openFlow g .flowMappingStart, rest)
  else if g.char == ']' then pure (← s.closeFlow .flowSequenceEnd, rest)
  else if g.char == '\x7d' then pure (← s.closeFlow .flowMappingEnd, rest)
  else if g.char == ',' then pure (← s.nextPart, rest)
  else if g.char == '-' && endsWord rest then pure (← s.nextEntry g, rest)
  else if g.char == '?' && (s.inFlow || endsWord rest) then pure (← s.explicitKey g, rest)
  else if g.char == ':' && (s.inFlow || endsWord rest) then pure (← s.nextValue g, rest)
  else if g.char == '*' then
    let s ← s.markKey g
    let (name, rest) ← readName rest
    pure ((s.allowKey false).push (.alias name), rest)
  else if g.char == '&' then
    let s ← s.markKey g
    let (name, rest) ← readName rest
    pure ((s.allowKey false).push (.anchor name), rest)
  else if g.char == '!' then
    let s ← s.markKey g
    let (tag, rest) ← readTag s.inFlow rest
    pure ((s.allowKey false).push tag, rest)
  else if (g.char == '|' || g.char == '>') && !s.inFlow then
    let s ← s.dropKey
    let folds := g.char == '>'
    let read ← readBlock folds s.indent rest
    pure ((s.allowKey true).takeScalar (if folds then .folded else .literal) read)
  else if g.char == '\'' then
    let s ← s.markKey g
    pure ((s.allowKey false).takeScalar .quoted (← readSingle [] Gap.none rest))
  else if g.char == '"' then
    let s ← s.markKey g
    pure ((s.allowKey false).takeScalar .quoted (← readDouble [] Gap.none .none rest))
  else if beginsPlain s.inFlow g rest then
    let s ← s.markKey g
    let read ← readPlain s.inFlow (s.indent + 1) [] Gap.none (g :: rest)
    pure ((s.allowKey read.broken).takeScalar .plain read)
  else none

/-- Take in the tokens of the text, of which no more than a bound are left. -/
def Lexing.run : Nat → Lexing → List Glyph → Option (List Token)
  | 0, _, _ => none
  | bound + 1, s, gs =>
    match skipToToken s.inFlow false s.keyAllowed gs with
    | ([], _) =>
      if s.marks.any fun mark => mark.any KeyMark.required then none
      else some (s.unindent (-1)).tokens.toList
    | (g :: rest, keyAllowed) =>
      match (s.allowKey keyAllowed).step g rest with
      | some (s, rest) => run bound s rest
      | none => none

/-- The tokens of a text, if it can be read. Each token takes up a character. -/
def tokensOf (text : String) : Option (List Token) := do
  let gs ← glyphsOf text
  Lexing.run (gs.length + 1) .initial gs

end Herald.Yaml
