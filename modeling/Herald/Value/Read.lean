import Herald.Text.Digits
import Herald.Value.Basic

/-!
# Reading JSON

A number without a point and without an exponent is an integer where it fits in 64 bits, signed or
unsigned; every other number, minus zero among them, is a double. Of the digits of a double no more
count than fit in 64 bits. A number beyond the doubles is refused. Of two fields with one key the
later one counts.
-/
namespace Herald.Value

/-- The characters after JSON's own blanks, which are fewer than the blank characters of text. -/
def skipBlanks (cs : List Char) : List Char :=
  cs.dropWhile fun c => c == ' ' || c == '\n' || c == '\r' || c == '\t'

/-- The number that four hexadecimal digits stand for. -/
def ofFourHex? (a b c d : Char) : Option Nat := do
  let a ← Text.hexValue? a
  let b ← Text.hexValue? b
  let c ← Text.hexValue? c
  let d ← Text.hexValue? d
  pure (((a * 16 + b) * 16 + c) * 16 + d)

/-- The character that an escape letter stands for. -/
def escaped? : Char → Option Char
  | '"' => some '"'
  | '\\' => some '\\'
  | '/' => some '/'
  | 'b' => some '\x08'
  | 'f' => some '\x0c'
  | 'n' => some '\n'
  | 'r' => some '\r'
  | 't' => some '\t'
  | _ => none

/-- The rest of a string after its opening quote. The first argument is the upper half of a
character given as two escapes, when the lower half has yet to come. -/
def readString : Option Nat → List Char → List Char → Option (String × List Char)
  | none, done, '"' :: rest => some (String.ofList done.reverse, rest)
  | upper, done, '\\' :: 'u' :: a :: b :: c :: d :: rest =>
    match ofFourHex? a b c d, upper with
    | none, _ => none
    | some n, none =>
      -- An upper half waits for its lower half; a lower half without one is no character.
      if 0xD800 ≤ n ∧ n < 0xDC00 then readString (some n) done rest
      else if 0xDC00 ≤ n ∧ n < 0xE000 then none
      else readString none (Char.ofNat n :: done) rest
    | some n, some u =>
      if 0xDC00 ≤ n ∧ n < 0xE000 then
        readString none (Char.ofNat (0x10000 + (u - 0xD800) * 0x400 + (n - 0xDC00)) :: done) rest
      else none
  | none, done, '\\' :: c :: rest =>
    match escaped? c with
    | some c => readString none (c :: done) rest
    | none => none
  | none, done, c :: rest => if c.toNat < 0x20 then none else readString none (c :: done) rest
  | _, _, _ => none

/-- The number of the leading digits, as long as it fits in 64 bits, and the digits left over. -/
def leadingDigits (soFar : Nat) : List Char → Nat × List Char
  | [] => (soFar, [])
  | c :: rest =>
    let next := 10 * soFar + Text.digitValue c
    if next < UInt64.size then leadingDigits next rest else (soFar, c :: rest)

/-- The double of a number from its sign, its digits, its fraction and its exponent. Digits of the
whole part that are left over count as zeros, and those of the fraction not at all. -/
def ofDigits? (negative : Bool) (whole fraction : List Char) (exponent : Int) : Option Double :=
  let (n, zeros) := leadingDigits 0 whole
  let (digits, ignored) := leadingDigits n fraction
  Double.ofDecimal? negative digits
    (exponent + zeros.length - (fraction.length - ignored.length : Nat))

/-- The value of a number from its sign, its digits and, where it has them, its fraction and
exponent. -/
def ofNumber (negative : Bool) (whole fraction : List Char) (exponent : Option Int) :
    Option Value :=
  let n : Int := if negative then -(Text.ofDigits whole : Int) else Text.ofDigits whole
  if fraction.isEmpty && exponent.isNone && isIntegerSize n && !(negative && n == 0) then
    some (.integer n)
  else (ofDigits? negative whole fraction (exponent.getD 0)).map .float

/-- The digits after a point, if a point comes next; a point without digits is refused. -/
def readFraction : List Char → Option (List Char × List Char)
  | '.' :: rest =>
    let digits := rest.takeWhile Char.isDigit
    if digits.isEmpty then none else some (digits, rest.dropWhile Char.isDigit)
  | rest => some ([], rest)

/-- The exponent after its digits have been reached. -/
def readExponentDigits (negative : Bool) (cs : List Char) : Option (Option Int × List Char) :=
  let digits := cs.takeWhile Char.isDigit
  if digits.isEmpty then none
  else
    let n : Int := Text.ofDigits digits
    some (some (if negative then -n else n), cs.dropWhile Char.isDigit)

/-- The exponent, if one comes next; its letter without digits is refused. -/
def readExponent : List Char → Option (Option Int × List Char)
  | c :: rest =>
    if c == 'e' || c == 'E' then
      match rest with
      | '-' :: more => readExponentDigits true more
      | '+' :: more => readExponentDigits false more
      | more => readExponentDigits false more
    else some (none, c :: rest)
  | [] => some (none, [])

/-- A number after its sign. -/
def readNumber (negative : Bool) (cs : List Char) : Option (Value × List Char) := do
  let whole := cs.takeWhile Char.isDigit
  if whole.isEmpty || (whole.length > 1 && whole.head? == some '0') then none
  else
    let (fraction, rest) ← readFraction (cs.dropWhile Char.isDigit)
    let (exponent, rest) ← readExponent rest
    let value ← ofNumber negative whole fraction exponent
    pure (value, rest)

/-- What follows a fixed word, if the text starts with it. -/
def afterWord? (word : List Char) (cs : List Char) : Option (List Char) :=
  if word.isPrefixOf cs then some (cs.drop word.length) else none

mutual

/-- The value at the start of the text, and what follows it. The bound is on the number of
characters still to be looked at. -/
def readValue : Nat → List Char → Option (Value × List Char)
  | 0, _ => none
  | bound + 1, cs =>
    match skipBlanks cs with
    | '"' :: rest => (readString none [] rest).map fun (s, more) => (.string s, more)
    | '[' :: rest =>
      match skipBlanks rest with
      | ']' :: more => some (.array [], more)
      | more => readItems bound [] more
    | '\x7b' :: rest =>
      match skipBlanks rest with
      | '\x7d' :: more => some (.object [], more)
      | more => readFields bound [] more
    | '-' :: rest => readNumber true rest
    | 'n' :: rest => (afterWord? "ull".toList rest).map fun more => (.null, more)
    | 't' :: rest => (afterWord? "rue".toList rest).map fun more => (.bool true, more)
    | 'f' :: rest => (afterWord? "alse".toList rest).map fun more => (.bool false, more)
    | rest => readNumber false rest

/-- The items of an array up to its closing bracket. -/
def readItems : Nat → List Value → List Char → Option (Value × List Char)
  | 0, _, _ => none
  | bound + 1, done, cs =>
    match readValue bound cs with
    | none => none
    | some (v, rest) =>
      match skipBlanks rest with
      | ',' :: more => readItems bound (v :: done) more
      | ']' :: more => some (.array (v :: done).reverse, more)
      | _ => none

/-- The fields of an object up to its closing brace. -/
def readFields : Nat → List (String × Value) → List Char → Option (Value × List Char)
  | 0, _, _ => none
  | bound + 1, done, cs =>
    match skipBlanks cs with
    | '"' :: rest =>
      match readString none [] rest with
      | none => none
      | some (key, rest) =>
        match skipBlanks rest with
        | ':' :: rest =>
          match readValue bound rest with
          | none => none
          | some (v, rest) =>
            match skipBlanks rest with
            | ',' :: more => readFields bound ((key, v) :: done) more
            | '\x7d' :: more => some (ofFields ((key, v) :: done).reverse, more)
            | _ => none
        | _ => none
    | _ => none

end

/-- The value of a whole JSON text, if it is one. -/
def read? (s : String) : Option Value :=
  match readValue (2 * s.length + 2) s.toList with
  | some (v, rest) => if (skipBlanks rest).isEmpty then some v else none
  | none => none

end Herald.Value
