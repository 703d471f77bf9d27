namespace Provisioning

inductive Decimal where
  | finite (negative : Bool) (coefficient : Nat) (exponent : Int)
  | infinite (negative : Bool)
  | nan (negative signalling : Bool) (payload : Nat)
  deriving DecidableEq, Repr, Inhabited

def digits (n : Nat) : List Char := Nat.toDigits 10 n

def digitCount (n : Nat) : Nat := (digits n).length

/-- Whole numbers are read and written with at most so many digits. -/
def maxDigits : Nat := 4300

def zeroes (n : Nat) : List Char := List.replicate n '0'

theorem digitCount_pos (n : Nat) : 0 < digitCount n := Nat.length_toDigits_pos

namespace Decimal

def isFinite : Decimal → Bool
  | finite .. => true
  | _ => false

def ofInt (n : Int) : Decimal := finite (n < 0) n.natAbs 0

/-- Decimals with these exponents have a text that reads back; no other has. -/
def leastExponent : Int := -1999999999999999997

def greatestExponent : Int := 999999999999999999

def adjusted (coefficient : Nat) (exponent : Int) : Int := exponent + (digitCount coefficient - 1)

def fits (coefficient : Nat) (exponent : Int) : Bool :=
  leastExponent ≤ exponent && adjusted coefficient exponent ≤ greatestExponent

def Representable : Decimal → Prop
  | finite _ c e => fits c e = true
  | _ => True

def exponentText (e : Int) : List Char :=
  'E' :: (if e < 0 then '-' else '+') :: digits e.natAbs

/-- Positional as long as the exponent is at most 0 and fewer than six zeros follow the point before
the first digit; one digit before the point and an exponent otherwise. -/
def finiteText (coefficient : Nat) (exponent : Int) : List Char :=
  let ds := digits coefficient
  let point := exponent + ds.length
  if 0 < exponent ∨ point ≤ -6 then
    ds.take 1 ++ (if ds.length ≤ 1 then [] else '.' :: ds.drop 1) ++ exponentText (point - 1)
  else if exponent = 0 then ds
  else if point ≤ 0 then '0' :: '.' :: zeroes (-point).toNat ++ ds
  else ds.take point.toNat ++ '.' :: ds.drop point.toNat

def signText (negative : Bool) : List Char := if negative then ['-'] else []

def toText : Decimal → List Char
  | finite neg c e => signText neg ++ finiteText c e
  | infinite neg => signText neg ++ "Infinity".toList
  | nan neg signalling payload =>
    signText neg ++ (if signalling then "sNaN".toList else "NaN".toList)
      ++ (if payload = 0 then [] else digits payload)

def text (d : Decimal) : String := String.ofList d.toText

/-- Whether `c * 10 ^ e` and `c' * 10 ^ e'` are one number, for `e' ≤ e`. The power of ten is only
taken when `c'` is large enough to equal it. -/
def scaledEq (c : Nat) (e : Int) (c' : Nat) (e' : Int) : Bool :=
  -- `Nat.pow`, since the instance behind `^` depends on what is imported.
  if c = 0 ∨ c' = 0 then c == c'
  else (e - e').toNat ≤ digitCount c' && c * Nat.pow 10 (e - e').toNat == c'

/-- Equality of values: spelling and the sign of zero do not count, and a NaN equals nothing. -/
def eqv : Decimal → Decimal → Bool
  | finite n c e, finite n' c' e' =>
    (n == n' || (c == 0 && c' == 0)) && if e' ≤ e then scaledEq c e c' e' else scaledEq c' e' c e
  | infinite n, infinite n' => n == n'
  | _, _ => false

example : (finite false 10 (-1)).text = "1.0" := by decide +kernel
example : (finite true 0 0).text = "-0" := by decide +kernel
example : (finite false 10 1).text = "1.0E+2" := by decide +kernel
example : (finite false 0 (-10)).text = "0E-10" := by decide +kernel
example : (finite false 1 (-6)).text = "0.000001" := by decide +kernel
example : (finite false 1 (-7)).text = "1E-7" := by decide +kernel
example : (finite false 10 (-7)).text = "0.0000010" := by decide +kernel
example : eqv (finite false 10 (-1)) (finite false 1 0) = true := by decide +kernel

end Decimal
end Provisioning
