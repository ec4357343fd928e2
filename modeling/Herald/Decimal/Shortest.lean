import Herald.Decimal.Double

/-!
# Shortest decimal text

Of all decimals that read back as the number, those with the fewest digits are taken, and of these
the nearest. The text is positional while the point falls among the digits or within five places
before them, and has an exponent beyond that; it always shows a point or an exponent, so that a
whole number is not taken for an integer.
-/
namespace Herald.Double

/-- The reals that read as a number, over a common denominator: the number itself, the two ends of
its interval, and whether the ends belong to it. -/
structure Interval where
  low : Nat
  value : Nat
  high : Nat
  den : Nat
  closed : Bool

/-- The interval of a significand and power: halfway to the neighbours, and the lower neighbour is
only half as far where the significand is the least of its exponent. -/
def intervalOf (significand : Nat) (power : Int) : Interval :=
  let below := if significand = twoTo 52 ∧ -1074 < power then 1 else 2
  let scale := twoTo power.natAbs
  if power < 0 then
    ⟨4 * significand - below, 4 * significand, 4 * significand + 2, 4 * scale, significand % 2 == 0⟩
  else
    ⟨(4 * significand - below) * scale, 4 * significand * scale, (4 * significand + 2) * scale, 4,
      significand % 2 == 0⟩

/-- The interval with every end multiplied by a power of ten. -/
def Interval.scaled (i : Interval) (exponent : Int) : Interval :=
  let ten := tenTo exponent.natAbs
  if exponent < 0 then { i with den := i.den * ten }
  else { i with low := i.low * ten, value := i.value * ten, high := i.high * ten }

/-- Whether a whole number lies in the interval. -/
def Interval.holds (i : Interval) (n : Nat) : Bool :=
  if i.closed then decide (i.low ≤ n * i.den) && decide (n * i.den ≤ i.high)
  else decide (i.low < n * i.den) && decide (n * i.den < i.high)

/-- The whole number of the interval that is nearest to its value, if it holds one. -/
def Interval.nearest? (i : Interval) : Option Nat :=
  -- If any whole number lies in the interval, so does one of the two beside the value.
  let below := i.value / i.den
  let rest := 2 * (i.value % i.den)
  let first := if rest < i.den ∨ (rest = i.den ∧ below % 2 = 0) then below else below + 1
  let second := if first = below then below + 1 else below
  if i.holds first then some first else if i.holds second then some second else none

/-- How many digits the value has before the point; zero or less counts the zeros after it. -/
def pointOf (num den : Nat) : Int :=
  if den ≤ num then (Nat.toDigits 10 (num / den)).length
  else 1 - ((List.range 400).find? fun k => decide (den ≤ num * tenTo k)).getD 0

/-- Digits and the place of the point, `0.d₁d₂… * 10 ^ point`, without zeros at the end. -/
def shortest (significand : Nat) (power : Int) : List Char × Int :=
  -- Seventeen digits always tell a number from its neighbours.
  let i := intervalOf significand power
  let point := pointOf i.value i.den
  let found := (List.range 17).findSome? fun (k : Nat) =>
    ((i.scaled ((k : Int) + 1 - point)).nearest?).map fun n => (n, k + 1)
  match found with
  | none => (['0'], point)
  | some (n, count) =>
    let digits := Nat.toDigits 10 n
    let trimmed := (digits.reverse.dropWhile (· == '0')).reverse
    (trimmed, point + (digits.length : Int) - (count : Int))

/-- An exponent, which carries its sign in either direction. -/
def exponentText (exponent : Int) : List Char :=
  'e' :: (if exponent < 0 then '-' else '+') :: (toString exponent.natAbs).toList

/-- The digits with their point, positional or with an exponent. -/
def layOut (digits : List Char) (point : Int) : List Char :=
  let count : Int := digits.length
  if 0 < point ∧ point ≤ 16 then
    if count ≤ point then digits ++ List.replicate (point - count).toNat '0' ++ ['.', '0']
    else digits.take point.toNat ++ '.' :: digits.drop point.toNat
  else if -5 < point ∧ point ≤ 0 then
    ['0', '.'] ++ List.replicate point.natAbs '0' ++ digits
  else
    let fraction := match digits.drop 1 with
      | [] => []
      | more => '.' :: more
    digits.take 1 ++ fraction ++ exponentText (point - 1)

/-- The shortest decimal text that reads back as the number. -/
def toText (x : Double) : String :=
  let (significand, power) := x.magnitude
  let body :=
    if significand = 0 then ['0', '.', '0']
    else
      let (digits, point) := shortest significand power
      layOut digits point
  String.ofList (if x.isNegative then '-' :: body else body)

end Herald.Double
