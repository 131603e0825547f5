/-!
# Decimals with fixed places

A binary floating-point number as a decimal with a fixed number of places. The number is taken at
its exact value, and where that lies between two decimals the nearer one is written; of two
equally near ones, that with the even last digit (`roundDiv`).
-/

namespace GoBuildRules.Decimal

/-- The integer nearest to `num / den`; of two equally near ones, the even one. -/
def roundDiv (num den : Nat) : Nat :=
  let quotient := num / den
  let twice := 2 * (num % den)
  if den < twice ∨ (twice = den ∧ quotient % 2 = 1) then quotient + 1 else quotient

/-- A floating-point number by its exact value. -/
inductive Exact where
  | nan
  | infinite (negative : Bool)
  /-- The number `± mantissa * 2 ^ exponent`. -/
  | finite (negative : Bool) (mantissa : Nat) (exponent : Int)
  deriving DecidableEq, Repr

/-- The value of a binary64 number, from its sign, exponent and fraction bits. -/
def Exact.ofBits (bits : UInt64) : Exact :=
  let n := bits.toNat
  let negative := n / 0x8000000000000000 == 1
  let exponent : Nat := n / 0x10000000000000 % 0x800
  let fraction : Nat := n % 0x10000000000000
  if exponent = 0x7ff then
    if fraction = 0 then .infinite negative else .nan
  else if exponent = 0 then .finite negative fraction (-1074)
  else .finite negative (0x10000000000000 + fraction) ((exponent : Int) - 1075)

/-- How many units of the last place make one: `10 ^ places`. -/
def unit (places : Nat) : Nat :=
  Nat.pow 10 places

/-- The integer nearest to `mantissa * 2 ^ exponent * 10 ^ places`. -/
def scaled (places mantissa : Nat) : Int → Nat
  | .ofNat up => mantissa * Nat.pow 2 up * unit places
  | .negSucc down => roundDiv (mantissa * unit places) (Nat.pow 2 (down + 1))

/-- The digits of `n`, with zeros in front up to the given width. -/
def padded (width n : Nat) : List Char :=
  let digits := Nat.toDigits 10 n
  List.replicate (width - digits.length) '0' ++ digits

/-- The text with `places` digits after the point. A zero keeps its sign, NaN has none. -/
def fixed (places : Nat) (x : Float) : String :=
  let sign (negative : Bool) : List Char := if negative then ['-'] else []
  match Exact.ofBits x.toBits with
  | .nan => "NaN"
  | .infinite negative => String.ofList (sign negative ++ ['i', 'n', 'f'])
  | .finite negative mantissa exponent =>
    let n := scaled places mantissa exponent
    String.ofList <|
      sign negative ++ Nat.toDigits 10 (n / unit places) ++ ['.'] ++
        padded places (n % unit places)

end GoBuildRules.Decimal
