/-!
# Double-precision numbers and their shortest text

A numeric literal denotes the double nearest to its exact decimal value. The text of a double is the shortest decimal
that reads back as it, written without an exponent.

- `nearest` rounds a decimal, a tie going to the even significand;
- `shortest` searches the decimals of one digit, two digits, … seventeen digits;
- `positional` writes digits around a decimal point.
-/

namespace InteropBindings.Number

/-- The number `digits · 10 ^ exponent`. -/
structure Decimal where
  digits : Nat
  exponent : Int
deriving DecidableEq, Repr

/-- The number `significand · 2 ^ exponent`, with a significand of at most 53 bits. -/
structure Double where
  significand : Nat
  exponent : Int
deriving DecidableEq, Repr

/-- A power of a whole number. -/
def power (base exponent : Nat) : Nat := Nat.pow base exponent

/-- Numerator and denominator of `n · base ^ exponent`. -/
def ratio (n base : Nat) : Int → Nat × Nat
  | .ofNat k => (n * power base k, 1)
  | .negSucc k => (n, power base (k + 1))

/-- The nearest whole number to a fraction, a half going to the even neighbour. -/
def roundHalfEven (num den : Nat) : Nat :=
  let low := num / den
  let twice := 2 * (num % den)
  if twice < den then low
  else if den < twice then low + 1
  else if low % 2 = 0 then low else low + 1

/-- The number of decimal digits. -/
def digitCount (n : Nat) : Nat := (Nat.toDigits 10 n).length

/-- A positive fraction rounded to 53 bits, or to fewer where the exponent cannot go lower. -/
def roundFraction (num den : Nat) : Double :=
  let guess : Int := (num.log2 : Int) - den.log2 - 52
  let scaled (q : Int) : Nat × Nat :=
    match q with
    | .ofNat k => (num, den * power 2 k)
    | .negSucc k => (num * power 2 (k + 1), den)
  let fits (q : Int) : Bool := let (n, d) := scaled q; n < d * power 2 53
  let q := max (-1074) (if fits (guess - 1) then guess - 1 else if fits guess then guess else guess + 1)
  let (n, d) := scaled q
  let m := roundHalfEven n d
  if m = power 2 53 then ⟨power 2 52, q + 1⟩ else ⟨m, q⟩

/-- The double nearest to a decimal, or nothing when the decimal is out of range. -/
def nearest (x : Decimal) : Option Double :=
  if x.digits = 0 then some ⟨0, 0⟩
  else
    let top : Int := digitCount x.digits + x.exponent
    if top > 310 then none
    else if top < -330 then some ⟨0, 0⟩
    else
      let (num, den) := ratio x.digits 10 x.exponent
      let y := roundFraction num den
      if y.significand = 0 then some ⟨0, 0⟩
      else if (y.significand.log2 : Int) + y.exponent ≥ 1024 then none
      else some y

/-- The power of ten of the leading digit of a positive fraction. -/
def leadingPower (num den : Nat) : Int :=
  let guess : Int := (digitCount num : Int) - digitCount den
  let reaches : Bool :=
    match guess with
    | .ofNat k => den * power 10 k ≤ num
    | .negSucc k => den ≤ num * power 10 (k + 1)
  if reaches then guess else guess - 1

/-- The decimal with `count` digits that reads back as `x` and is nearest to it, if there is one. -/
def readBack? (x : Double) (count : Nat) : Option Decimal :=
  let (num, den) := ratio x.significand 2 x.exponent
  let unit : Int := leadingPower num den - (count - 1 : Nat)
  let (n, d) :=
    match unit with
    | .ofNat k => (num, den * power 10 k)
    | .negSucc k => (num * power 10 (k + 1), den)
  let low : Decimal := ⟨n / d, unit⟩
  let high : Decimal := if n / d + 1 = power 10 count then ⟨power 10 (count - 1), unit + 1⟩ else ⟨n / d + 1, unit⟩
  let near := if 2 * (n % d) ≤ d then [low, high] else [high, low]
  near.find? fun y => nearest y = some x

/-- The shortest decimal that reads back as a positive double. -/
def shortest (x : Double) : Decimal :=
  ((List.range 17).findSome? fun k => readBack? x (k + 1)).getD ⟨x.significand, 0⟩

/-- A decimal written without an exponent. -/
def positional (x : Decimal) : List Char :=
  let digits := Nat.toDigits 10 x.digits
  match x.exponent with
  | .ofNat k => digits ++ List.replicate k '0'
  | .negSucc k =>
    let places := k + 1
    if places < digits.length then
      digits.take (digits.length - places) ++ '.' :: digits.drop (digits.length - places)
    else '0' :: '.' :: (List.replicate (places - digits.length) '0' ++ digits)

/-- The text of the double that a decimal denotes. -/
def Decimal.text (x : Decimal) : List Char :=
  match nearest x with
  | none => ['i', 'n', 'f']
  | some ⟨0, _⟩ => ['0']
  | some y => positional (shortest y)

end InteropBindings.Number
