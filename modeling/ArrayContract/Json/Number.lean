import ArrayContract.Decimal.Shortest
import ArrayContract.Element.Basic
import ArrayContract.Json.Basic

/-! # Numbers in JSON

A literal stands for an integer where it is written as one that fits in 64 bits, and otherwise for a
floating-point number. The latter is found in two steps: the digits and the power of ten are rounded
first, and then their product or quotient. -/

namespace ArrayContract.Json.Number

open Binary (binary64)

/-- What a literal stands for. -/
inductive Meaning
  | natural (n : Nat)
  | negative (n : Nat)
  | float (word : ElementType.float64.Word)

/-! ## Floating-point literals -/

/-- Takes digits into a significand while it fits, and counts those that do not. -/
def absorb (significand : Nat) : List Nat → Nat × Nat
  | [] => (significand, 0)
  | d :: ds =>
    if significand * 10 + d < naturalBound then absorb (significand * 10 + d) ds
    else (significand, ds.length + 1)

/-- The significand of a literal, and the power of ten it is scaled by. -/
def significand (n : Number) : Nat × Int :=
  let (whole, dropped) := absorb 0 ((Nat.toDigits 10 n.whole).map fun c => c.toNat - '0'.toNat)
  let (all, unused) := absorb whole n.fraction
  (all, (dropped : Int) - (n.fraction.length - unused : Nat) + n.exponent.getD 0)

/-- The greatest power of ten below infinity. -/
def greatestPower : Nat := 308

/-- The magnitude of a quotient, each side of which is rounded first. -/
def divide (magnitude power : Nat) : Nat :=
  binary64.nearest (binary64.quanta magnitude)
    (binary64.quanta (binary64.nearest (Nat.pow 10 power) 1))

/-- The magnitude of a product, each side of which is rounded first. -/
def multiply (magnitude power : Nat) : Nat :=
  binary64.nearest
    (binary64.quanta magnitude * binary64.quanta (binary64.nearest (Nat.pow 10 power) 1))
    (binary64.one * binary64.one)

/-- The magnitude of a significand scaled by a power of ten. Below the smallest power the quotient
is taken in steps. -/
def scaled (significand : Nat) (exponent : Int) : Nat :=
  let magnitude := binary64.nearest significand 1
  let down := (-exponent).toNat
  if magnitude = 0 then 0
  else if 0 ≤ exponent then
    if exponent.toNat ≤ greatestPower then multiply magnitude exponent.toNat
    else binary64.infinity
  else if down ≤ greatestPower then divide magnitude down
  else if down ≤ 2 * greatestPower then
    divide (divide magnitude greatestPower) (down - greatestPower)
  else 0

/-- The floating-point number of a literal. -/
def toBinary64 (n : Number) : ElementType.float64.Word :=
  let (significand, exponent) := n.significand
  BitVec.ofNat 64 (binary64.pack n.negative (scaled significand exponent))

/-! ## Meaning and text -/

/-- The greatest magnitude of a negative integer. -/
def negativeBound : Nat := 1 <<< 63

/-- What a literal stands for: an integer if it is written as one and fits. -/
def meaning (n : Number) : Meaning :=
  if n.fraction.isEmpty && n.exponent.isNone then
    if !n.negative && n.whole < naturalBound then .natural n.whole
    else if n.negative && n.whole != 0 && n.whole ≤ negativeBound then .negative n.whole
    else .float n.toBinary64
  else .float n.toBinary64

/-- The floating-point number nearest to what a literal stands for. -/
def asFloat (n : Number) : ElementType.float64.Word :=
  match n.meaning with
  | .natural k => BitVec.ofNat 64 (binary64.ofInt k)
  | .negative k => BitVec.ofNat 64 (binary64.ofInt (-k))
  | .float word => word

/-- The text of a number. -/
def text (n : Number) : String :=
  match n.meaning with
  | .natural k => toString k
  | .negative k => "-" ++ toString k
  | .float word => binary64.text word.toNat

end ArrayContract.Json.Number
