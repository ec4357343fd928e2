/-!
# Double-precision numbers

A double-precision number is held by its 64 bits. A finite number is a whole significand times a
power of two. Every operation gives the number nearest to the exact result, and of two that are
equally near the one with the even significand.

A decimal is read in steps: its digits as a number, and that number times or divided by a power of
ten, which is a number itself. Each step is rounded. That is the nearest number to the decimal where
digits and power are numbers exactly, as they are for up to fifteen digits and powers up to the
twenty-second; beyond it may be the one beside.
-/
namespace Herald

/-- A double-precision number by its bits: sign, eleven bits of exponent, 52 bits of fraction. -/
structure Double where
  bits : UInt64
  deriving DecidableEq, Repr, Inhabited

namespace Double

def twoTo (n : Nat) : Nat := Nat.pow 2 n

def tenTo (n : Nat) : Nat := Nat.pow 10 n

def fraction (x : Double) : Nat := x.bits.toNat % twoTo 52

def biased (x : Double) : Nat := x.bits.toNat / twoTo 52 % twoTo 11

def isNegative (x : Double) : Bool := decide (twoTo 63 ≤ x.bits.toNat)

/-- The magnitude as `significand * 2 ^ power`, for finite numbers. -/
def magnitude (x : Double) : Nat × Int :=
  if x.biased = 0 then (x.fraction, -1074) else (twoTo 52 + x.fraction, (x.biased : Int) - 1075)

/-- The whole number nearest to `num / den`, the even one of two that are equally near. -/
def roundRatio (num den : Nat) : Nat :=
  let low := num / den
  let rest := 2 * (num % den)
  if rest < den then low else if den < rest then low + 1 else low + low % 2

/-- The power of two by which a positive ratio is divided to leave a significand of 53 bits, or of
fewer where the exponents end. -/
def powerFor (num den : Nat) : Int :=
  -- The ratio lies between `2 ^ (guess + 52)` and `2 ^ (guess + 54)`, so one test settles the
  -- power.
  let guess : Int := (Nat.log2 num : Int) - Nat.log2 den - 53
  let wide : Bool :=
    if guess < 0 then decide (den * twoTo 53 ≤ num * twoTo guess.natAbs)
    else decide (den * twoTo guess.natAbs * twoTo 53 ≤ num)
  max (-1074) (if wide then guess + 1 else guess)

/-- The bits of the double nearest to the ratio, sign apart. -/
def bitsOfRatio (num den : Nat) : Nat :=
  if num = 0 then 0
  else
    let power := powerFor num den
    let significand :=
      if power < 0 then roundRatio (num * twoTo power.natAbs) den
      else roundRatio num (den * twoTo power.natAbs)
    -- A significand that was rounded up to 54 bits carries into the exponent by the same sum.
    if significand < twoTo 52 then significand
    else (power + 1075).toNat * twoTo 52 + (significand - twoTo 52)

/-- The double nearest to a ratio; none if that is beyond every finite double. -/
def ofRatio? (num den : Nat) : Option Double :=
  let bits := bitsOfRatio num den
  if bits < 0x7FF * twoTo 52 then some ⟨UInt64.ofNat bits⟩ else none

/-- The magnitude as a ratio, for finite numbers. -/
def ratio (x : Double) : Nat × Nat :=
  let (significand, power) := x.magnitude
  if power < 0 then (significand, twoTo power.natAbs) else (significand * twoTo power.natAbs, 1)

/-- The product of two magnitudes; none if it is beyond every finite double. -/
def times? (x y : Double) : Option Double :=
  ofRatio? (x.ratio.1 * y.ratio.1) (x.ratio.2 * y.ratio.2)

def over? (x y : Double) : Option Double :=
  ofRatio? (x.ratio.1 * y.ratio.2) (x.ratio.2 * y.ratio.1)

def zero : Double := ⟨0⟩

/-- The greatest power of ten that is a double. -/
def topTen : Nat := 308

/-- A magnitude times a power of ten; none if that is beyond every finite double. -/
def timesTenTo? (x : Double) (n : Nat) : Option Double :=
  if x = zero then some zero
  else if topTen < n then none
  else do x.times? (← ofRatio? (tenTo n) 1)

/-- A magnitude divided by a power of ten, in two steps where the power is no double. -/
def overTenTo? (x : Double) (n : Nat) : Option Double := do
  if n ≤ topTen then x.over? (← ofRatio? (tenTo n) 1)
  else if n ≤ 2 * topTen then
    let top ← ofRatio? (tenTo topTen) 1
    let y ← x.over? top
    y.over? (← ofRatio? (tenTo (n - topTen)) 1)
  else
    -- No number below `2 ^ 64` is left of so large a division.
    some zero

def withSign (x : Double) (negative : Bool) : Double :=
  if negative then ⟨UInt64.ofNat (x.bits.toNat + twoTo 63)⟩ else x

/-- The double read for `digits * 10 ^ exponent`, where the digits are a number below `2 ^ 64`; none
if it is beyond every finite double. -/
def ofDecimal? (negative : Bool) (digits : Nat) (exponent : Int) : Option Double := do
  let x ← ofRatio? digits 1
  let scaled ←
    if 0 ≤ exponent then x.timesTenTo? exponent.natAbs else x.overTenTo? exponent.natAbs
  pure (scaled.withSign negative)

end Double
end Herald
