import ArrayContract.Proofs.Argument.Coercion
import ArrayContract.Proofs.Binary.Reading
import ArrayContract.Proofs.Element.Arrays
import ArrayContract.Proofs.Element.Integers
import ArrayContract.Proofs.Nested.Disagreement
import ArrayContract.Proofs.Value.Native

/-! # Casts that involve floating-point numbers

`read` is what an element stands for, an integer itself and a floating-point word by its fields. A
cast to integers cuts the reading down to the bounds of the type (`cast_truncates`). An integer with
no more digits than the precision of a floating-point type is kept by it (`read_cast_of_fits`), so
it comes back unchanged (`cast_back_of_fits`); and a number of single precision comes back from
double precision bit by bit (`cast_float64_cast`). `float_casts` says the same of arrays of either
backend, and of nested sequences, whose numbers have double precision. -/

namespace ArrayContract

open Binary (Format Reading Truncates binary32 binary64 towardZero_intCast)
open Outcome

namespace ElementType

variable {s t : ElementType}

/-- What an element stands for. -/
def read (t : ElementType) (x : t.Word) : Reading :=
  match t.format? with
  | none => .finite x.toInt
  | some f => f.read x.toNat

/-- An integer is the one that the reading of an element of another type is cut down to. -/
def Truncated (s t : ElementType) (x : s.Word) (y : t.Word) : Prop :=
  ∀ n : Int, Truncates (-2 ^ (t.width - 1)) (2 ^ (t.width - 1) - 1) (s.read x) n ↔ n = y.toInt

/-- An integer is left as it was, if it is no greater than that power of two, the sign apart. -/
def KeptUpTo (digits : Nat) (x y : s.Word) : Prop := x.toInt.natAbs ≤ 2 ^ digits → y = x

/-- A word is left as it was, bit by bit, if it is a number. -/
def KeptNumber (x y : s.Word) : Prop := s.read x ≠ .nan → y = x

/-! ## Formats and bounds -/

theorem exists_format (h : t.isFloat = true) :
    ∃ f, t.format? = some f ∧ f.Ample ∧ t.width = f.width := by
  cases t with
  | float32 => exact ⟨binary32, rfl, Format.ample_binary32, rfl⟩
  | float64 => exact ⟨binary64, rfl, Format.ample_binary64, rfl⟩
  | _ => cases h

theorem read_of_format {f : Format} (h : t.format? = some f) (x : t.Word) :
    t.read x = f.read x.toNat := by
  rw [read, h]

theorem read_of_integer (h : t.isFloat = false) (x : t.Word) : t.read x = .finite x.toInt := by
  rw [read, format?_eq_none h]

theorem isNaN_iff {x : t.Word} : t.isNaN x = true ↔ t.read x = .nan := by
  rcases ht : t.isFloat with _ | _
  · rw [isNaN, format?_eq_none ht, read_of_integer ht]
    simp
  · obtain ⟨f, hf, hample, -⟩ := exists_format ht
    rw [isNaN, hf, read_of_format hf]
    exact Format.isNaN_iff hample.exponent

theorem lowest_eq (t : ElementType) : t.lowest = -2 ^ (t.width - 1) := by
  rw [lowest, Nat.one_shiftLeft, Nat.cast_pow]
  rfl

theorem highest_eq (t : ElementType) : t.highest = 2 ^ (t.width - 1) - 1 := by
  rw [highest, Nat.one_shiftLeft, Nat.cast_pow]
  rfl

theorem toInt_ofInt_of_bounds {n : Int} (hlow : t.lowest ≤ n) (hhigh : n ≤ t.highest) :
    (BitVec.ofInt t.width n).toInt = n := by
  rw [lowest_eq] at hlow
  rw [highest_eq] at hhigh
  rw [BitVec.toInt_ofInt]
  exact ((represents_iff t.width_pos).mp ⟨hlow, by omega, Int.ModEq.refl n⟩).symm

theorem toInt_bounds (x : t.Word) : t.lowest ≤ x.toInt ∧ x.toInt ≤ t.highest := by
  have hlow := x.le_toInt
  have hhigh := x.toInt_lt
  rw [lowest_eq, highest_eq]
  omega

/-! ## To integers -/

/-- **A cast to integers** cuts the reading down to the bounds of the type. -/
theorem cast_truncates (hs : s.isFloat = true) (ht : t.isFloat = false) (x : s.Word) :
    Truncated s t x (s.cast t x) := by
  obtain ⟨f, hf, hample, -⟩ := exists_format hs
  have hlow : t.lowest ≤ 0 := by
    rw [lowest_eq]
    exact Int.neg_nonpos_of_nonneg (Int.le_of_lt (Int.pow_pos (by decide)))
  have hhigh : 0 ≤ t.highest := by
    rw [highest_eq]
    have : (0 : Int) < 2 ^ (t.width - 1) := Int.pow_pos (by decide)
    omega
  have hle := hlow.trans hhigh
  have hread := fun n => Format.truncates_iff hample.exponent (n := n) hle x.toNat
  intro n
  rw [← lowest_eq, ← highest_eq, read_of_format hf, hread, cast, hf, format?_eq_none ht]
  obtain ⟨hl, hh⟩ := ((hread _).mpr rfl).bounds hlow hhigh
  rw [toInt_ofInt_of_bounds hl hh]

/-! ## From integers -/

/-- **An integer with no more digits than the precision** is kept as it is. -/
theorem read_cast_of_fits {f : Format} (hs : s.isFloat = false) (ht : t.format? = some f)
    {x : s.Word} (hx : x.toInt.natAbs ≤ 2 ^ f.precision) :
    t.read (s.cast t x) = .finite x.toInt := by
  obtain ⟨f', hf', hample, hwidth⟩ := exists_format (t := t) (by rw [isFloat, ht]; rfl)
  obtain rfl : f = f' := Option.some.inj (ht.symm.trans hf')
  obtain ⟨hlt, hread⟩ := hample.read_ofInt hx
  rw [read_of_format ht, cast, format?_eq_none hs, ht]
  show f.read (BitVec.ofNat t.width (f.ofInt x.toInt)).toNat = _
  rw [BitVec.toNat_ofNat, hwidth, Nat.mod_eq_of_lt hlt, hread]

theorem cast_back_of_fits {f : Format} (hs : s.isFloat = false) (ht : t.format? = some f)
    {x : s.Word} (hx : x.toInt.natAbs ≤ 2 ^ f.precision) : t.cast s (s.cast t x) = x := by
  have htrunc := cast_truncates (s := t) (by rw [isFloat, ht]; rfl) hs (s.cast t x)
  obtain ⟨hlow, hhigh⟩ := toInt_bounds x
  refine BitVec.eq_of_toInt_eq ((htrunc _).mp ?_).symm
  rw [← lowest_eq, ← highest_eq, read_cast_of_fits hs ht hx]
  have hwithin : Truncates s.lowest s.highest (.finite x.toInt) (Binary.towardZero x.toInt) :=
    .within (by exact_mod_cast hlow) (by exact_mod_cast hhigh)
  rwa [towardZero_intCast] at hwithin

/-! ## Single and double precision -/

/-- **A number of single precision** comes back from double precision as it was. -/
theorem cast_float64_cast {x : float32.Word} (hx : float32.read x ≠ .nan) :
    float64.cast float32 (float32.cast float64 x) = x := by
  obtain ⟨hlt, hback⟩ := Format.binary64_holds_binary32.convert_convert Format.ample_binary32
    Format.ample_binary64 x.isLt hx
  show BitVec.ofNat 32 (binary64.convert binary32
    (BitVec.ofNat 64 (binary32.convert binary64 x.toNat)).toNat) = x
  have hwide : (BitVec.ofNat 64 (binary32.convert binary64 x.toNat)).toNat =
      binary32.convert binary64 x.toNat := Nat.mod_eq_of_lt hlt
  rw [hwide, hback]
  exact BitVec.eq_of_toNat_eq (Nat.mod_eq_of_lt x.isLt)

end ElementType

/-! ## Nested sequences -/

/-- A number of single precision in a nested sequence, which has double precision. -/
def Nested.Leaf.ofSingle (x : ElementType.float32.Word) : Leaf :=
  .float (ElementType.float32.cast .float64 x)

theorem Nested.numbers_ofWords (words : List ElementType.float32.Word) :
    (ofWords .float32 words).numbers = words.map .ofSingle := by
  show numbersOf (words.map _) = _
  rw [numbersOf_eq_flatMap, List.flatMap_map, List.map_eq_flatMap]
  rfl

theorem Nested.content_of_singles {v : Nested} {words : List ElementType.float32.Word}
    (h : v.numbers = words.map .ofSingle) : v.content =
      .ofElements .float64 (words.map fun x => some (ElementType.float32.cast .float64 x)) := by
  have hfloat : v.numbers = [] ∨ ∃ l ∈ v.numbers, l.isInt = false := by
    rcases words with _ | ⟨x, xs⟩
    · exact Or.inl h
    · exact Or.inr ⟨.ofSingle x, h ▸ List.mem_cons_self, rfl⟩
  rw [content, if_pos hfloat, h, List.map_map]
  rfl

variable {spec : ArraySpec} {v : Nested} {words : List ElementType.float32.Word}

/-- Numbers of single precision come out of a nested sequence as they were put in. -/
theorem ArraySpec.content_of_check_singles (hspec : spec.type = .of .float32)
    (hv : v.numbers = words.map .ofSingle) {w : Value}
    (hw : (spec.check (.nested v)).result = .ok w) :
    ∃ words' : List ElementType.float32.Word,
      w.content? = some (.ofElements .float32 (words'.map some)) ∧
      List.Forall₂ ElementType.KeptNumber words words' := by
  refine ⟨words.map (ElementType.float64.cast .float32 ∘ ElementType.float32.cast .float64), ?_, ?_⟩
  · rw [content_of_check hw (congrArg some (Nested.content_of_singles hv)), hspec, Column.castAs,
      Column.castTo_ofElements, List.map_map, List.map_map]
    rfl
  · rw [List.forall₂_map_right_iff, List.forall₂_same]
    exact fun x _ hx => ElementType.cast_float64_cast hx

theorem ArraySpec.exists_check_of_rectangular (hspec : spec.type = .of .float32)
    (hshape : spec.shape = .any) {s : Shape} (hs : v.Rectangular s) (hl : s.length ≤ nestingLimit) :
    ∃ w, (spec.check (.nested v)).result = .ok w ∧ w.representation = .native spec.backend ∧
      w.shape? = some s := by
  have hd : v.toDense = .ok ⟨s, Nested.bufferOf v.numbers⟩ :=
    Nested.toDense_eq_ok_iff.mpr ⟨hs, hl, rfl⟩
  obtain ⟨u, hu, hus⟩ : ∃ u, spec.backend.toNative (.nested v) = .ok u ∧ u.shape? = some s := by
    cases spec.backend with
    | host => exact ⟨_, congrArg (Except.map Value.dense) hd, rfl⟩
    | arrow => exact ⟨_, congrArg (fun a => (a.map Tensor.ofDense).map Value.tensor) hd, rfl⟩
  refine ⟨u.castTo .float32, ?_, ?_, ?_⟩
  · rw [result_check, result_checkType_of hspec, Backend.convertType_of_native hu, bind_ok,
      result_checkShape_any hshape]
  · rw [Value.representation_castTo]
    exact (Backend.native_of_toNative hu).1
  · rw [Value.shape?_castTo, hus]

/-- **Casts that involve floating-point numbers.** On arrays of either backend, place by place and
nulls apart:

* what an element stands for, read off its fields as a fraction, is cut down to the bounds of an
  integer type: 0 for what is not a number, the bound for what lies beyond it, and else the integer
  part toward zero;
* an integer comes back from double precision unchanged if it is at most `2 ^ 53` in magnitude, and
  from single precision if it is at most `2 ^ 24`;
* a number of single precision comes back from double precision bit by bit.

So the numbers of single precision that a nested sequence is made of are what it is coerced to, in
the shape of the sequence where none is declared. -/
theorem float_casts :
    (∀ s t : ElementType, s.isFloat = true → t.isFloat = false →
      (∀ a : DenseArray, a.type = s →
        ∃ b, (a.cast (.of t)).result = .ok b ∧ a.PlaceByPlace (ElementType.Truncated s t) b) ∧
      ∀ a : Tensor, a.type = .of s →
        ∃ b, (a.cast (.of t)).result = .ok b ∧ a.PlaceByPlace (ElementType.Truncated s t) b) ∧
    (∀ s t digits, s.isFloat = false →
      (t, digits) ∈ [(ElementType.float64, 53), (ElementType.float32, 24)] →
      (∀ a : DenseArray, a.type = s → ∃ b c, (a.cast (.of t)).result = .ok b ∧
        (b.cast (.of s)).result = .ok c ∧
        a.PlaceByPlace (ElementType.KeptUpTo (s := s) digits) c) ∧
      ∀ a : Tensor, a.type = .of s → ∃ b c, (a.cast (.of t)).result = .ok b ∧
        (b.cast (.of s)).result = .ok c ∧
        a.PlaceByPlace (ElementType.KeptUpTo (s := s) digits) c) ∧
    ((∀ a : DenseArray, a.type = .float32 → ∃ b c, (a.cast (.of .float64)).result = .ok b ∧
        (b.cast (.of .float32)).result = .ok c ∧
        a.PlaceByPlace (ElementType.KeptNumber (s := .float32)) c) ∧
      (∀ a : Tensor, a.type = .of .float32 → ∃ b c, (a.cast (.of .float64)).result = .ok b ∧
        (b.cast (.of .float32)).result = .ok c ∧
        a.PlaceByPlace (ElementType.KeptNumber (s := .float32)) c) ∧
      ∀ (spec : ArraySpec) (v : Nested) (words : List ElementType.float32.Word),
        spec.type = .of .float32 → v.numbers = words.map .ofSingle →
        (∀ w, (spec.check (.nested v)).result = .ok w →
          ∃ words' : List ElementType.float32.Word,
            w.content? = some (.ofElements .float32 (words'.map some)) ∧
            List.Forall₂ ElementType.KeptNumber words words') ∧
        ∀ s, spec.shape = .any → v.Rectangular s → s.length ≤ nestingLimit →
          ∃ w, (spec.check (.nested v)).result = .ok w ∧
            w.representation = .native spec.backend ∧ w.shape? = some s) := by
  refine ⟨fun s t hs ht => ?_, fun s t digits hs ht => ?_, ?_, ?_, fun spec v words hspec hv => ?_⟩
  · have htrunc := ElementType.cast_truncates hs ht
    exact ⟨fun a => DenseArray.placeByPlace_cast htrunc, fun a => Tensor.placeByPlace_cast htrunc⟩
  · obtain ⟨f, hf, rfl⟩ : ∃ f, t.format? = some f ∧ f.precision = digits := by
      simp only [List.mem_cons, Prod.mk.injEq, List.not_mem_nil, or_false] at ht
      rcases ht with ⟨rfl, rfl⟩ | ⟨rfl, rfl⟩
      · exact ⟨binary64, rfl, rfl⟩
      · exact ⟨binary32, rfl, rfl⟩
    have hback := fun x => ElementType.cast_back_of_fits (x := x) hs hf
    exact ⟨fun a => DenseArray.placeByPlace_cast_cast hback,
      fun a => Tensor.placeByPlace_cast_cast hback⟩
  · exact fun a => DenseArray.placeByPlace_cast_cast fun x => ElementType.cast_float64_cast
  · exact fun a => Tensor.placeByPlace_cast_cast fun x => ElementType.cast_float64_cast
  · exact ⟨fun w => ArraySpec.content_of_check_singles hspec hv,
      fun s hshape hs => ArraySpec.exists_check_of_rectangular hspec hshape hs⟩

/-- What is not a number, a null, the least number above all integers of 64 bits and the greatest
one below it; an integer that double precision holds beside one that it does not; and a nested
sequence of a tenth, the negative zero and the least number of single precision. -/
theorem float_casts_edges :
    let a : Tensor := .ofCells [4] .float64
      [some 0x7ff8000000000000, none, some 0x43e0000000000000, some 0x43dfffffffffffff]
    let b : Tensor := .ofCells [4] .int64
      [some 0, none, some 9223372036854775807, some 9223372036854774784]
    let c : DenseArray := ⟨[2], .int64, [9007199254740992, 9007199254740993]⟩
    let spec : ArraySpec := { name := "x", type := .of .float32, backend := .arrow }
    let words : List ElementType.float32.Word := [0x3dcccccd, 0x80000000, 1]
    (a.cast (.of .int64)).result = .ok b ∧
      a.PlaceByPlace (ElementType.Truncated .float64 .int64) b ∧
      (∃ d y, (c.cast (.of .float64)).result = .ok d ∧
        (d.cast (.of .int64)).result = .ok ⟨[2], .int64, [9007199254740992, y]⟩) ∧
      ∃ w, (spec.check (.nested (.ofWords .float32 words))).result = .ok w ∧
        w.shape? = some [3] ∧ w.content? = some (.ofElements .float32 (words.map some)) := by
  intro a b c spec words
  obtain ⟨truncate, back, -, -, coerce⟩ := float_casts
  refine ⟨rfl, ?_, ?_, ?_⟩
  · obtain ⟨b', hb', hab⟩ := (truncate .float64 .int64 rfl rfl).2 a rfl
    have hb : (a.cast (.of .int64)).result = .ok b := rfl
    obtain rfl : b = b' := Except.ok.inj (hb.symm.trans hb')
    exact hab
  · obtain ⟨d, e, hd, he, ws, ws', hws, rfl, hkept⟩ :=
      (back .int64 .float64 53 rfl (by simp)).1 c rfl
    obtain rfl : [9007199254740992, 9007199254740993] = ws :=
      eq_of_heq (Buffer.mk.inj (congrArg DenseArray.buffer hws)).2
    obtain ⟨x, _, hx, hrest, rfl⟩ := List.forall₂_cons_left_iff.mp hkept
    obtain ⟨y, _, -, hnil, rfl⟩ := List.forall₂_cons_left_iff.mp hrest
    obtain rfl := List.forall₂_nil_left_iff.mp hnil
    obtain rfl : x = 9007199254740992 := hx (by decide)
    exact ⟨d, y, hd, he⟩
  · obtain ⟨hkept, hcheck⟩ := coerce spec (.ofWords .float32 words) words rfl
      (Nested.numbers_ofWords words)
    have hs : (Nested.ofWords .float32 words).Rectangular [3] := by
      refine .list (by simp [words]) fun v hv => ?_
      obtain ⟨x, -, rfl⟩ := List.mem_map.mp hv
      exact .float _
    obtain ⟨w, hw, -, hshape⟩ := hcheck [3] rfl hs (by decide)
    obtain ⟨words', hcontent, hall⟩ := hkept w hw
    have hnumbers : ∀ x ∈ words, ElementType.float32.isNaN x ≠ true := by simp [words]; decide
    have heq : List.Forall₂ (fun x y => x = y) words words' :=
      ((List.forall₂_and_left _ _).mpr ⟨hnumbers, hall⟩).imp fun x y h =>
        (h.2 (mt ElementType.isNaN_iff.mpr h.1)).symm
    have hsame : words = words' := by rwa [List.forall₂_eq_eq_eq] at heq
    exact ⟨w, hw, hshape, hsame ▸ hcontent⟩

end ArrayContract
