import ArrayContract.Binary.Format

/-! # Shortest decimals

`shortest` is the decimal with the fewest digits among those that round to a floating-point
magnitude, and of those with as few the closest to it. `Decimal.text` writes a decimal
positionally from 10⁻⁵ up to below 10¹⁶, and otherwise with a signed exponent. -/

namespace ArrayContract

/-- The number `digits * 10 ^ exponent`. -/
structure Decimal where
  digits : Nat
  exponent : Int
  deriving DecidableEq

namespace Decimal

/-- The sign of `d - num / den`. -/
def compareRatio (d : Decimal) (num den : Nat) : Ordering :=
  compare (d.digits * Nat.pow 10 d.exponent.toNat * den) (num * Nat.pow 10 (-d.exponent).toNat)

/-- The decimal without trailing zeros; `fuel` bounds their number. -/
def strip : Nat → Decimal → Decimal
  | 0, d => d
  | fuel + 1, d =>
    if d.digits ≠ 0 ∧ d.digits % 10 = 0 then strip fuel ⟨d.digits / 10, d.exponent + 1⟩ else d

/-- The least `k` with `num / den < 10 ^ k`, for a ratio other than zero; `zeros` bounds the number
of zeros after the point. -/
def scale (zeros num den : Nat) : Int :=
  if den ≤ num then (Nat.toDigits 10 (num / den)).length
  else -((List.range zeros).takeWhile fun j => num * Nat.pow 10 (j + 1) < den).length

/-! ## The fewest digits -/

/-- Whether a decimal rounds to a magnitude: it lies no further than halfway to either neighbour,
and exactly halfway only if the magnitude is even. -/
def roundsTo (f : Binary.Format) (magnitude : Nat) (d : Decimal) : Bool :=
  let low := d.compareRatio (f.quanta (magnitude - 1) + f.quanta magnitude) (2 * f.one)
  let high := d.compareRatio (f.quanta magnitude + f.quanta (magnitude + 1)) (2 * f.one)
  let even := magnitude % 2 == 0
  (low == .gt || even && low == .eq) && (high == .lt || even && high == .eq)

/-- The decimal with the given place of its last digit that rounds to a magnitude and is closest to
it; of two equally close ones the even one. -/
def onGrid? (f : Binary.Format) (magnitude : Nat) (exponent : Int) : Option Decimal :=
  let num := f.quanta magnitude * Nat.pow 10 (-exponent).toNat
  let den := f.one * Nat.pow 10 exponent.toNat
  let below : Decimal := ⟨num / den, exponent⟩
  let above : Decimal := ⟨num / den + 1, exponent⟩
  match roundsTo f magnitude below, roundsTo f magnitude above with
  | true, true =>
    some (if Binary.roundHalfEven num den = below.digits then below else above)
  | true, false => some below
  | false, true => some above
  | false, false => none

/-- The number of digits that tell all magnitudes of the known formats apart. -/
def enoughDigits : Nat := 17

/-- The shortest decimal that rounds to a magnitude. -/
def shortest (f : Binary.Format) (magnitude : Nat) : Decimal :=
  if magnitude = 0 then ⟨0, 0⟩
  else
    let k := scale (1 <<< f.exponentBits) (f.quanta magnitude) f.one
    let found := (List.range enoughDigits).findSome? fun (n : Nat) =>
      onGrid? f magnitude (k - (n + 1 : Nat))
    strip enoughDigits
      (found.getD ⟨f.quanta magnitude * Nat.pow 10 f.one.log2 / f.one, -f.one.log2⟩)

/-! ## Layout -/

/-- An exponent with its sign. -/
def exponentText (e : Int) : List Char :=
  'e' :: (if e < 0 then '-' else '+') :: Nat.toDigits 10 e.natAbs

/-- The text of a decimal: positional with the point after at least `-4` and at most `16` digits,
and otherwise with one digit before the point and an exponent. -/
def text (d : Decimal) : String :=
  let digits := Nat.toDigits 10 d.digits
  let point : Int := digits.length + d.exponent
  let zeros (n : Int) : List Char := List.replicate n.toNat '0'
  let layout : List Char :=
    if 0 ≤ d.exponent ∧ point ≤ 16 then digits ++ zeros d.exponent ++ ['.', '0']
    else if 0 < point ∧ point ≤ 16 then
      digits.take point.toNat ++ '.' :: digits.drop point.toNat
    else if -5 < point ∧ point ≤ 0 then '0' :: '.' :: zeros (-point) ++ digits
    else
      let tail := digits.drop 1
      digits.take 1 ++ (if tail.isEmpty then [] else '.' :: tail) ++
        exponentText (point - 1)
  String.ofList layout

end Decimal

/-- The text of a finite floating-point word. -/
def Binary.Format.text (f : Binary.Format) (word : Nat) : String :=
  (if f.negative word then "-" else "") ++ (Decimal.shortest f (f.magnitude word)).text

end ArrayContract
