/-! # Binary floating-point formats

A `Format` lays out a word as a sign bit, an exponent field and a fraction. Below the sign, the two
fields together are the *magnitude*; magnitudes are ordered as the numbers they stand for.
`quanta` counts a finite magnitude in multiples of the smallest positive number of the format, of
which `one` make the number 1, and `nearest` is the magnitude closest to a ratio, ties to even.
Conversions between formats and to and from integers are built from these two. -/

namespace ArrayContract.Binary

/-- The quotient rounded to the nearest integer, a half to the even neighbour. -/
def roundHalfEven (num den : Nat) : Nat :=
  let q := num / den
  let r := num % den
  if 2 * r < den then q
  else if den < 2 * r then q + 1
  else q + q % 2

/-- A format is given by its precision, the hidden bit included, and its exponent field's width. -/
structure Format where
  precision : Nat
  exponentBits : Nat
  deriving DecidableEq

/-- Single precision. -/
def binary32 : Format := ⟨24, 8⟩

/-- Double precision. -/
def binary64 : Format := ⟨53, 11⟩

namespace Format

variable (f : Format)

/-- The number of bits of a word. -/
def width : Nat := f.exponentBits + f.precision

def fractionBits : Nat := f.precision - 1

/-- The weight of the sign bit, above every magnitude. -/
def signWeight : Nat := 1 <<< (f.exponentBits + f.fractionBits)

/-- The magnitude of infinity; those above it are not numbers. -/
def infinity : Nat := (1 <<< f.exponentBits - 1) <<< f.fractionBits

/-- The number of quanta in 1. -/
def one : Nat := 1 <<< (1 <<< (f.exponentBits - 1) + f.fractionBits - 2)

/-- The fraction's top bit, set in a quiet not-a-number. -/
def quietBit : Nat := 1 <<< (f.fractionBits - 1)

/-! ## Fields -/

def negative (word : Nat) : Bool := word / f.signWeight % 2 == 1

def magnitude (word : Nat) : Nat := word % f.signWeight

/-- The word of a sign and a magnitude. -/
def pack (negative : Bool) (magnitude : Nat) : Nat :=
  if negative then f.signWeight + magnitude else magnitude

def isNaN (word : Nat) : Bool := f.infinity < f.magnitude word

/-- The not-a-number without sign or payload. -/
def quietNaN : Nat := f.infinity + f.quietBit

/-! ## Magnitudes as numbers -/

/-- A finite magnitude as a multiple of the smallest positive number. -/
def quanta (magnitude : Nat) : Nat :=
  let exponent := magnitude >>> f.fractionBits
  let fraction := magnitude % (1 <<< f.fractionBits)
  if exponent = 0 then fraction
  else (1 <<< f.fractionBits + fraction) <<< (exponent - 1)

/-- The magnitude nearest to a ratio, ties to even; too large a ratio gives infinity.
Rounding up to the next power of two carries into the exponent field, so one sum serves all. -/
def nearest (num den : Nat) : Nat :=
  let n := num * f.one
  let shift := (n / den).log2 - f.fractionBits
  min (shift <<< f.fractionBits + roundHalfEven n (den <<< shift)) f.infinity

/-! ## Equality and conversion -/

/-- Numeric equality: not-a-number differs from every word, and the two zeros are equal. -/
def same (a b : Nat) : Bool :=
  !f.isNaN a && !f.isNaN b && (a == b || f.magnitude a == 0 && f.magnitude b == 0)

/-- The word nearest to an integer. -/
def ofInt (x : Int) : Nat := f.pack (x < 0) (f.nearest x.natAbs 1)

/-- The integer part of a word, held between two bounds; not-a-number gives zero. -/
def truncate (low high : Int) (word : Nat) : Int :=
  let magnitude := f.magnitude word
  if f.infinity < magnitude then 0
  else if magnitude = f.infinity then if f.negative word then low else high
  else
    let whole : Int := f.quanta magnitude / f.one
    max low (min high (if f.negative word then -whole else whole))

/-- The not-a-number of another format with the same sign and leading payload, made quiet. -/
def convertNaN (g : Format) (word : Nat) : Nat :=
  let payload := (f.magnitude word - f.infinity) <<< g.fractionBits >>> f.fractionBits
  g.pack (f.negative word) (g.infinity + (payload ||| g.quietBit))

/-- The word of another format nearest to this one; a word of the same format is left alone. -/
def convert (g : Format) (word : Nat) : Nat :=
  if f = g then word
  else
    let magnitude := f.magnitude word
    if f.infinity < magnitude then f.convertNaN g word
    else if magnitude = f.infinity then g.pack (f.negative word) g.infinity
    else g.pack (f.negative word) (g.nearest (f.quanta magnitude) f.one)

end Format

end ArrayContract.Binary
