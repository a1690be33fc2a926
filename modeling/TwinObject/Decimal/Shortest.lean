/-
The shortest decimal of a double: the fewest digits that read back as the
same double, and of those the nearest.  A double is taken apart into a
significand and a power of two; the search compares exact integers only.
-/

namespace TwinObject

/-- A double taken apart: a finite one is `significand * 2 ^ exponent`. -/
inductive BinaryFloat where
  | nan
  | infinite (negative : Bool)
  | finite (negative : Bool) (significand : Nat) (exponent : Int)
deriving DecidableEq, Repr, Inhabited

def BinaryFloat.ofFloat (x : Float) : BinaryFloat :=
  let bits := x.toBits.toNat
  let negative := bits / Nat.pow 2 63 = 1
  let biased : Nat := bits / Nat.pow 2 52 % Nat.pow 2 11
  let fraction := bits % Nat.pow 2 52
  if biased = 2047 then
    if fraction = 0 then .infinite negative else .nan
  else if biased = 0 then .finite negative fraction (-1074)
  else .finite negative (fraction + Nat.pow 2 52) (biased - 1075)

/-- The decimal `digits * 10 ^ exponent`. -/
structure Decimal where
  digits : Nat
  exponent : Int
deriving DecidableEq, Repr, Inhabited

namespace Decimal

/-- Move trailing zeros of the digits into the exponent, at most `fuel` of
them. -/
def strip : Nat → Decimal → Decimal
  | 0, d => d
  | fuel + 1, d =>
      if d.digits % 10 = 0 ∧ d.digits ≠ 0 then strip fuel ⟨d.digits / 10, d.exponent + 1⟩ else d

/-- Numbers that share one denominator: the value of a double, and the two
ends of the interval of reals that are rounded to it. -/
structure Rounding where
  value : Nat
  low : Nat
  high : Nat
  denominator : Nat
  endsIncluded : Bool

/-- The interval of `m * 2 ^ q`.  Below a power of two the neighbour is twice
as near, unless the exponent is already the least. -/
def Rounding.of (m : Nat) (q : Int) : Rounding :=
  let scale := Nat.pow 2 (q - 2).toNat
  let below := if m = Nat.pow 2 52 ∧ q > -1074 then 1 else 2
  { value := 4 * m * scale
    low := (4 * m - below) * scale
    high := (4 * m + 2) * scale
    denominator := Nat.pow 2 (2 - q).toNat
    endsIncluded := m % 2 = 0 }

/-- The same numbers in units of `10 ^ e`. -/
def Rounding.inUnits (r : Rounding) (e : Int) : Rounding :=
  let scale := Nat.pow 10 (-e).toNat
  { r with
    value := r.value * scale
    low := r.low * scale
    high := r.high * scale
    denominator := r.denominator * Nat.pow 10 e.toNat }

/-- Whether the whole number `c` lies in the interval. -/
def Rounding.admits (r : Rounding) (c : Nat) : Bool :=
  let x := c * r.denominator
  if r.endsIncluded then r.low ≤ x && x ≤ r.high else r.low < x && x < r.high

/-- The exponent of the leading decimal digit of `n / d`. -/
def leadingExponent (n d : Nat) : Int :=
  if d ≤ n then ((Nat.toDigits 10 (n / d)).length : Int) - 1
  else -((Nat.toDigits 10 ((d - 1) / n)).length : Int)

/-- The neighbour of the value on the grid of `10 ^ e` that lies in the
interval; of two the nearer, and the upper one of an exact tie. -/
def Rounding.onGrid (r : Rounding) (e : Int) : Option Decimal :=
  let u := r.inUnits e
  let below := u.value / u.denominator
  let rest := u.value % u.denominator
  match u.admits below, u.admits (below + 1) with
  | true, true => some ⟨if 2 * rest < u.denominator then below else below + 1, e⟩
  | true, false => some ⟨below, e⟩
  | false, true => some ⟨below + 1, e⟩
  | false, false => none

/-- The shortest decimal that is rounded to `m * 2 ^ q`, for `m ≠ 0`. -/
def shortest (m : Nat) (q : Int) : Decimal :=
  let r := Rounding.of m q
  let top := leadingExponent r.value r.denominator
  let found := (List.range 17).findSome? fun (n : Nat) => r.onGrid (top - n)
  strip 400 (found.getD ⟨0, 0⟩)

end Decimal

/-- How decimals are written: which exponents of the leading digit are written
without a power of ten, and whether a whole number keeps a point and a zero. -/
structure DecimalStyle where
  positional : Int → Bool
  wholePoint : Bool

namespace DecimalStyle

/-- Always positional, with no fraction for whole numbers. -/
def plain : DecimalStyle := ⟨fun _ => true, false⟩

/-- Scientific from `10 ^ 16` on and below `10 ^ -4`; a whole number keeps
its point. -/
def exact : DecimalStyle := ⟨fun top => -4 ≤ top && top < 16, true⟩

def digitsText (style : DecimalStyle) (d : Decimal) : String :=
  let ds := Nat.toDigits 10 d.digits
  let top := d.exponent + ds.length - 1
  if style.positional top then
    if 0 ≤ d.exponent then
      String.ofList (ds ++ List.replicate d.exponent.toNat '0')
        ++ (if style.wholePoint then ".0" else "")
    else if 0 ≤ top then
      String.ofList (ds.take (top.toNat + 1)) ++ "." ++ String.ofList (ds.drop (top.toNat + 1))
    else
      "0." ++ String.ofList (List.replicate (-top - 1).toNat '0' ++ ds)
  else
    String.ofList (ds.take 1) ++ (if ds.length = 1 then "" else "." ++ String.ofList (ds.drop 1))
      ++ "e" ++ toString top

def text (style : DecimalStyle) (x : Float) : String :=
  match BinaryFloat.ofFloat x with
  | .nan => "NaN"
  | .infinite negative => if negative then "-inf" else "inf"
  | .finite negative m q =>
      (if negative then "-" else "")
        ++ (if m = 0 then (if style.wholePoint then "0.0" else "0")
            else style.digitsText (Decimal.shortest m q))

end DecimalStyle

end TwinObject
