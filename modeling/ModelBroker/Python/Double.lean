import Mathlib.Algebra.Order.Ring.Rat
import Mathlib.Data.Rat.Floor
import Mathlib.Data.Nat.Log
import ModelBroker.Python.Text

/-!
# Python's numbers

A `float` is a binary64 number. `Double.round` is the number nearest to a
rational one (ties to even); `float` is the constructor applied to a `str`, with
its grammar of digits, underscores, exponents, infinities and NaN; `Double.int` is
the conversion to an integer, which fails for what is not finite. The two zeros are
one value here, since no program distinguishes them. `int` is the constructor of an
integer applied to a `str`, which reads digits as `float` does.

* `Double.int_isOk`: `int` returns exactly for the finite numbers.
-/

namespace ModelBroker.Python

/-- A `float`. -/
inductive Double where
  | finite (value : ℚ)
  | inf
  | negInf
  | nan
  deriving DecidableEq

namespace Double

/-! ## Rounding -/

/-- The natural number nearest to a rational one, the even one of two. -/
def roundEven (x : ℚ) : ℕ :=
  let k := ⌊x⌋₊
  if x - k < 1 / 2 then k
  else if 1 / 2 < x - k then k + 1
  else k + k % 2

/-- The binary64 number nearest to a rational magnitude, or `none` beyond the
    greatest one. Magnitudes are counted in units of `2 ^ -1074`, and those from
    `2 ^ 53` units on have 53 significant bits. -/
def roundMagnitude (x : ℚ) : Option ℚ :=
  let units := x * 2 ^ 1074
  let ulp := 2 ^ (Nat.log 2 ⌊units⌋₊ - 52)
  let rounded := roundEven (units / ulp) * ulp
  if rounded < 2 ^ 2098 then some (rounded / 2 ^ 1074) else none

/-- The `float` nearest to a rational number. -/
def round (x : ℚ) : Double :=
  match roundMagnitude |x| with
  | some magnitude => .finite (if x < 0 then -magnitude else magnitude)
  | none => if x < 0 then .negInf else .inf

/-! ## Conversions -/

/-- The errors of a conversion. -/
inductive ConversionError where
  | valueError
  | overflowError
  deriving DecidableEq

/-- `int(x)`: the integer part, towards zero. -/
def int : Double → Except ConversionError ℤ
  | finite value => .ok (if value < 0 then ⌈value⌉ else ⌊value⌋)
  | inf | negInf => .error .overflowError
  | nan => .error .valueError

/-- `x > 0`. -/
def isPositive : Double → Bool
  | finite value => 0 < value
  | inf => true
  | negInf | nan => false

/-- `math.isfinite(x)`. -/
def isFinite : Double → Bool
  | finite _ => true
  | inf | negInf | nan => false

/-- `int` returns exactly for the finite numbers. -/
theorem int_isOk (x : Double) : (∃ z, x.int = .ok z) ↔ x.isFinite = true := by
  cases x with
  | finite value => exact ⟨fun _ => rfl, fun _ => ⟨_, rfl⟩⟩
  | inf | negInf | nan => exact ⟨(fun ⟨_, h⟩ => nomatch h), nofun⟩

/-- `int` returns zero for the magnitudes below one. -/
theorem int_eq_zero (x : Double) : x.int = .ok 0 ↔ ∃ value, x = .finite value ∧ |value| < 1 := by
  cases x with
  | finite value =>
    simp only [int, finite.injEq, exists_eq_left', Except.ok.injEq]
    split_ifs with h
    · rw [Int.ceil_eq_zero_iff, abs_of_neg h, Set.mem_Ioc]
      constructor
      · rintro ⟨hlow, -⟩
        linarith
      · intro hlow
        exact ⟨by linarith, h.le⟩
    · rw [Int.floor_eq_zero_iff, abs_of_nonneg (not_lt.1 h), Set.mem_Ico]
      exact ⟨And.right, fun hhigh => ⟨not_lt.1 h, hhigh⟩⟩
  | inf | negInf | nan => exact ⟨nofun, fun ⟨_, h, _⟩ => nomatch h⟩

/-! ## `repr` -/

/-- The decimal exponent of a positive magnitude: `10 ^ e ≤ x < 10 ^ (e + 1)`. -/
def exponent (x : ℚ) : ℤ :=
  if 1 ≤ x then Nat.log 10 ⌊x⌋₊ else -(Nat.clog 10 ⌈x⁻¹⌉₊ : ℤ)

/-- A positive magnitude rounded to `digits` significant decimal digits: the
    digits as one number, and the exponent of the first of them. -/
def significant (x : ℚ) (digits : ℕ) : ℕ × ℤ :=
  let e := exponent x
  let m := roundEven (x * 10 ^ ((digits : ℤ) - 1 - e))
  if m = 10 ^ digits then (10 ^ (digits - 1), e + 1) else (m, e)

/-- The fewest digits, at most 17, that round to the magnitude itself. -/
def shortest (x : ℚ) : ℕ × ℤ :=
  let fits := fun digits =>
    let d := significant x digits
    roundMagnitude (d.1 * 10 ^ (d.2 + 1 - digits)) = some x
  significant x (((List.range' 1 16).find? fits).getD 17)

/-- Decimal digits as text: with an exponent from `limit` on and below `-4`, and
    otherwise with a point, and `tail` in place of an empty fraction. -/
def layout (limit : ℤ) (tail : String) (digits : List Char) (e : ℤ) : String :=
  if -4 ≤ e ∧ e < limit then
    if e < 0 then
      "0." ++ String.ofList (List.replicate (-e - 1).toNat '0' ++ digits)
    else
      let whole := e.toNat + 1
      let padded := digits ++ List.replicate (whole - digits.length) '0'
      let fraction := padded.drop whole
      String.ofList (padded.take whole) ++
        (if fraction = [] then tail else "." ++ String.ofList fraction)
  else
    String.ofList (digits.take 1) ++
      (if digits.drop 1 = [] then "" else "." ++ String.ofList (digits.drop 1)) ++
      (if e < 0 then "e-" else "e+") ++ (if e.natAbs < 10 then "0" else "") ++
      Nat.repr e.natAbs

/-- `repr(x)`. -/
def repr : Double → String
  | finite value =>
    if value = 0 then "0.0"
    else
      let d := shortest |value|
      (if value < 0 then "-" else "") ++ layout 16 ".0" (Nat.repr d.1).toList d.2
  | inf => "inf"
  | negInf => "-inf"
  | nan => "nan"

/-- `f"{x:g}"`: six significant digits, without zeros at the end. -/
def formatG : Double → String
  | finite value =>
    if value = 0 then "0"
    else
      let d := significant |value| 6
      let digits := ((Nat.repr d.1).toList.reverse.dropWhile (· = '0')).reverse
      (if value < 0 then "-" else "") ++ layout 6 "" digits d.2
  | x => x.repr

/-! ## `float` -/

/-- The code points of the zeros of the decimal digits (Unicode 15.1). -/
def zeros : List ℕ :=
  [0x30, 0x660, 0x6f0, 0x7c0, 0x966, 0x9e6, 0xa66, 0xae6, 0xb66, 0xbe6, 0xc66, 0xce6, 0xd66, 0xde6,
    0xe50, 0xed0, 0xf20, 0x1040, 0x1090, 0x17e0, 0x1810, 0x1946, 0x19d0, 0x1a80, 0x1a90, 0x1b50,
    0x1bb0, 0x1c40, 0x1c50, 0xa620, 0xa8d0, 0xa900, 0xa9d0, 0xa9f0, 0xaa50, 0xabf0, 0xff10, 0x104a0,
    0x10d30, 0x11066, 0x110f0, 0x11136, 0x111d0, 0x112f0, 0x11450, 0x114d0, 0x11650, 0x116c0,
    0x11730, 0x118e0, 0x11950, 0x11c50, 0x11d50, 0x11da0, 0x11f50, 0x16a60, 0x16ac0, 0x16b50,
    0x1d7ce, 0x1d7d8, 0x1d7e2, 0x1d7ec, 0x1d7f6, 0x1e140, 0x1e2f0, 0x1e4f0, 0x1e950, 0x1fbf0]

/-- A character as the conversion reads it: ASCII is kept, other white space is a
    space, other decimal digits are ASCII ones, and the rest cannot be read. -/
def toASCII (c : Char) : Char :=
  if c.toNat < 127 then c
  else if isSpace c then ' '
  else
    match zeros.find? fun first => first ≤ c.toNat && c.toNat < first + 10 with
    | some first => Char.ofNat (0x30 + (c.toNat - first))
    | none => '?'

/-- White space in C's locale. -/
def isSpaceC (c : Char) : Bool := c = ' ' || (9 ≤ c.toNat && c.toNat ≤ 13)

/-- The text without its underscores, each of which must stand between digits.
    `digit` tells whether the character before was one. -/
def dropUnderscores (digit : Bool) : List Char → Option (List Char)
  | [] => some []
  | '_' :: c :: rest =>
    if digit && c.isDigit then (dropUnderscores true rest).map (c :: ·) else none
  | ['_'] => none
  | c :: rest => (dropUnderscores c.isDigit rest).map (c :: ·)

/-- The number that decimal digits are. -/
def ofDigits (digits : List Char) : ℕ :=
  digits.foldl (fun n c => n * 10 + (c.toNat - 0x30)) 0

/-- A sign, if there is one, and the rest. -/
def sign : List Char → Bool × List Char
  | '-' :: rest => (true, rest)
  | '+' :: rest => (false, rest)
  | text => (false, text)

/-- The exponent after a mantissa: nothing, or `e` and digits with an optional
    sign. -/
def readExponent : List Char → Option ℤ
  | [] => some 0
  | c :: rest =>
    let (negative, digits) := sign rest
    if (c = 'e' || c = 'E') && digits ≠ [] && digits.all Char.isDigit then
      some (if negative then -(ofDigits digits : ℤ) else ofDigits digits)
    else none

/-- The rational number that a decimal literal without a sign denotes. -/
def readDecimal (text : List Char) : Option ℚ :=
  let whole := text.takeWhile Char.isDigit
  let rest := text.dropWhile Char.isDigit
  let (fraction, rest) :=
    match rest with
    | '.' :: rest => (rest.takeWhile Char.isDigit, rest.dropWhile Char.isDigit)
    | _ => ([], rest)
  if whole = [] ∧ fraction = [] then none
  else
    (readExponent rest).map fun e =>
      (ofDigits (whole ++ fraction) : ℚ) * 10 ^ (e - (fraction.length : ℤ))

/-- A literal without white space and underscores. -/
def readLiteral (text : List Char) : Option Double :=
  let (negative, rest) := sign text
  let name := rest.map Char.toLower
  if name = "inf".toList ∨ name = "infinity".toList then some (if negative then negInf else inf)
  else if name = "nan".toList then some nan
  else (readDecimal rest).map fun x => round (if negative then -x else x)

end Double

/-- `float(text)`; `none` is a `ValueError`. -/
def float (text : String) : Option Double :=
  (Double.dropUnderscores false
    (stripChars Double.isSpaceC (text.toList.map Double.toASCII))).bind Double.readLiteral

/-! ## `int` of a text -/

/-- The most digits that a text may have (`sys.get_int_max_str_digits()`). -/
def maxStrDigits : ℕ := 4300

/-- `int(text)`; `none` is a `ValueError`. -/
def int (text : String) : Option ℤ :=
  (Double.dropUnderscores false
    (stripChars Double.isSpaceC (text.toList.map Double.toASCII))).bind fun chars =>
      let (negative, digits) := Double.sign chars
      if digits ≠ [] ∧ digits.all Char.isDigit ∧ digits.length ≤ maxStrDigits then
        some (if negative then -(Double.ofDigits digits : ℤ) else Double.ofDigits digits)
      else none

example : int " -1_000\n" = some (-1000) := by decide

example : int "1.0" = none := by decide

end ModelBroker.Python
