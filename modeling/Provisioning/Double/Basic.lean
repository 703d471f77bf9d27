namespace Provisioning

inductive Double where
  | finite (negative : Bool) (mantissa : Nat) (exponent : Int)
  | infinite (negative : Bool)
  | nan
  deriving DecidableEq, Repr, Inhabited

def roundDiv (n d : Nat) : Nat :=
  if 2 * (n % d) < d ∨ (2 * (n % d) = d ∧ n / d % 2 = 0) then n / d else n / d + 1

def scaleByTwo (n d : Nat) (k : Int) : Nat × Nat :=
  (n * Nat.pow 2 k.toNat, d * Nat.pow 2 (-k).toNat)

namespace Double

def leastExponent : Int := -1074

def greatestExponent : Int := 971

/-- The exponent with which a mantissa of 53 bits comes closest to `n / d`. -/
def exponentFor (n d : Nat) : Int :=
  let k : Int := Nat.log2 n - Nat.log2 d
  let (a, b) := scaleByTwo n d (-k)
  max (if b ≤ a then k - 52 else k - 53) leastExponent

/-- A mantissa that has rounded up to 54 bits moves to the next exponent. -/
def normal (negative : Bool) (mantissa : Nat) (exponent : Int) : Double :=
  if mantissa < Nat.pow 2 53 then
    if greatestExponent < exponent then infinite negative else finite negative mantissa exponent
  else if greatestExponent ≤ exponent then infinite negative
  else finite negative (mantissa / 2) (exponent + 1)

def nearest (negative : Bool) (n d : Nat) : Double :=
  if n = 0 then finite negative 0 leastExponent else
    let e := exponentFor n d
    let (a, b) := scaleByTwo n d (-e)
    normal negative (roundDiv a b) e

/-- The double nearest to `c * 10 ^ e`. Powers of ten are taken only near the finite range. -/
def ofScientific (negative : Bool) (c : Nat) (e : Int) : Double :=
  let leading := e + (Nat.toDigits 10 c).length
  if c = 0 ∨ leading < -330 then finite negative 0 leastExponent
  else if 310 < leading then infinite negative
  else nearest negative (c * Nat.pow 10 e.toNat) (Nat.pow 10 (-e).toNat)

def toInt? : Double → Option Int
  | finite neg m e =>
    let (n, d) := scaleByTwo m 1 e
    if n % d = 0 then some (if neg then -(n / d : Nat) else (n / d : Nat)) else none
  | _ => none

def isFinite : Double → Bool
  | finite .. => true
  | _ => false

example : ofScientific false 125 (-1) = finite false (25 * 2 ^ 48) (-49) := by decide +kernel
example : ofScientific false 5 (-324) = finite false 1 (-1074) := by decide +kernel
example : ofScientific true 1 400 = infinite true := by decide +kernel
example : (ofScientific false 9007199254740993 0).toInt? = some 9007199254740992 := by decide +kernel

end Double
end Provisioning
