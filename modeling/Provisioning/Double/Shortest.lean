import Provisioning.Double.Basic
import Provisioning.Decimal.Basic

namespace Provisioning.Double

/-- Four times the mantissa and the ends of the interval that rounds to it, in quarters of its unit.
Below a power of two the next double is only half a unit away. -/
structure Interval where
  low : Nat
  value : Nat
  high : Nat
  closed : Bool

def interval (m : Nat) (e : Int) : Interval where
  low := if m = Nat.pow 2 52 ∧ leastExponent < e then 4 * m - 1 else 4 * m - 2
  value := 4 * m
  high := 4 * m + 2
  closed := m % 2 = 0

def Interval.reads (i : Interval) (u p : Int) (c : Nat) : Bool :=
  let x := c * Nat.pow 10 p.toNat * Nat.pow 2 (-u).toNat
  let unit := Nat.pow 2 u.toNat * Nat.pow 10 (-p).toNat
  if i.closed then i.low * unit ≤ x && x ≤ i.high * unit else i.low * unit < x && x < i.high * unit

/-- The better of the two neighbours of the value among the multiples of `10 ^ p`. -/
def Interval.candidate? (i : Interval) (u p : Int) : Option Nat :=
  let n := i.value * Nat.pow 2 u.toNat * Nat.pow 10 (-p).toNat
  let d := Nat.pow 2 (-u).toNat * Nat.pow 10 p.toNat
  let c := n / d
  match i.reads u p c, i.reads u p (c + 1) with
  | true, true => some (roundDiv n d)
  | true, false => some c
  | false, true => some (c + 1)
  | false, false => none

def magnitude (n d : Nat) : Int :=
  let k : Int := (digitCount n : Int) - digitCount d
  if d * Nat.pow 10 k.toNat ≤ n * Nat.pow 10 (-k).toNat then k + 1 else k

/-- Tries one more digit at a time; 17 digits always read back. -/
def shortestFrom (i : Interval) (u top : Int) : Nat → Nat → Nat × Int
  | 0, _ => (0, 0)
  | fuel + 1, count =>
    match i.candidate? u (top - count) with
    | some c => (c, top - count)
    | none => shortestFrom i u top fuel (count + 1)

/-- Coefficient and exponent of ten of the shortest decimal, for a mantissa above zero. -/
def shortest (m : Nat) (e : Int) : Nat × Int :=
  let (n, d) := scaleByTwo m 1 e
  shortestFrom (interval m e) (e - 2) (magnitude n d) 17 1

def dropZeros : List Char → List Char := fun s ↦ (s.reverse.dropWhile (· = '0')).reverse

/-- Positional from `1e-4` up to below `1e16`, always with a point; otherwise with an exponent of at
least two digits. -/
def layout (ds : List Char) (point : Int) : List Char :=
  if point ≤ -4 ∨ 16 < point then
    let e := point - 1
    let es := digits e.natAbs
    ds.take 1 ++ (if ds.length ≤ 1 then [] else '.' :: ds.drop 1)
      ++ 'e' :: (if e < 0 then '-' else '+') :: (zeroes (2 - es.length) ++ es)
  else if point ≤ 0 then '0' :: '.' :: zeroes (-point).toNat ++ ds
  else if ds.length ≤ point then ds ++ zeroes (point.toNat - ds.length) ++ ['.', '0']
  else ds.take point.toNat ++ '.' :: ds.drop point.toNat

def toText : Double → List Char
  | nan => "nan".toList
  | infinite neg => Decimal.signText neg ++ "inf".toList
  | finite neg m e =>
    Decimal.signText neg ++
      if m = 0 then "0.0".toList else
        let (c, p) := shortest m e
        layout (dropZeros (digits c)) (p + digitCount c)

def text (x : Double) : String := String.ofList x.toText

example : (ofScientific false 1 (-1)).text = "0.1" := by decide +kernel
example : (ofScientific false 30000000000000004 (-17)).text = "0.30000000000000004" := by
  decide +kernel
example : (ofScientific false 1 16).text = "1e+16" := by decide +kernel
example : (ofScientific false 15 (-8)).text = "1.5e-07" := by decide +kernel
example : (ofScientific true 0 0).text = "-0.0" := by decide +kernel
example : (ofScientific false 5 (-324)).text = "5e-324" := by decide +kernel
example : (ofScientific false 30 0).text = "30.0" := by decide +kernel

end Provisioning.Double
