import Provisioning.Decimal.Reader
import Provisioning.Shape

namespace Provisioning

/-- The whole number of a decimal that has no fraction. -/
def Decimal.toInt? : Decimal → Option Int
  | finite neg c e =>
    let n := c * Nat.pow 10 e.toNat
    let d := Nat.pow 10 (-e).toNat
    if n % d = 0 then some (if neg then -(n / d : Nat) else (n / d : Nat)) else none
  | _ => none

namespace Request

open Text

def groupedDigits? : List Char → Option (List Char)
  | [] => none
  | [c] => if c.isDigit then some [c] else none
  | c :: '_' :: s => if c.isDigit then (groupedDigits? s).map (c :: ·) else none
  | c :: s => if c.isDigit then (groupedDigits? s).map (c :: ·) else none

def isZeroFraction : List Char → Bool
  | [] => true
  | c :: s => c == '.' && !s.isEmpty && s.all (· == '0')

/-- Leaves out zeros and underscores. Where no digit or minus follows them, the last one stays. -/
def dropPadding (last : Char) : List Char → List Char
  | [] => [last]
  | c :: s =>
    if c = '0' ∨ c = '_' then dropPadding c s
    else if c.isDigit ∨ c = '-' then c :: s
    else last :: c :: s

def wholeDigits? (s : List Char) : Option (List Char) :=
  if isZeroFraction (s.dropWhile (· != '.')) then groupedDigits? (s.takeWhile (· != '.')) else none

def dropUnderscore : List Char → List Char
  | '_' :: s => s
  | s => s

/-- The digits after a minus that stands between zeros and the number. No more zeros may stand in front. -/
def lateDigits? (s : List Char) : Option (List Char) :=
  (wholeDigits? (dropUnderscore s)).filter fun ds ↦ ds.head? != some '0' || ds == ['0']

def signed (neg : Bool) (ds : List Char) : Int :=
  if neg then -(Decimal.numeral ds : Int) else Decimal.numeral ds

/-- The number after zeros in front. A text without a sign may have a minus there. -/
def afterZeros? : Bool → List Char → Option Int
  | false, '-' :: s => (lateDigits? s).map (signed true)
  | neg, s => (wholeDigits? s).map (signed neg)

def integer? (s : List Char) : Option Int :=
  let (neg, s) := Decimal.takeSign s
  match s with
  | '0' :: s => afterZeros? neg (dropPadding '0' s)
  | s => (wholeDigits? s).map (signed neg)

/-- The characters of a number, its minus among them. -/
def width (n : Int) : Nat := digitCount n.natAbs + if n < 0 then 1 else 0

def startsTooLong (s : List Char) : Bool :=
  let (minus, t) := match s with
    | '-' :: t => (1, t)
    | _ => (0, s)
  t.head? != some '0' && maxIntegerText < minus + (t.takeWhile Char.isDigit).length

def integerOfText (s : String) : Except ShapeFault Int :=
  match (integer? (trim isSpace s.toList)).filter (width · ≤ maxIntegerText) with
  | some n => .ok n
  | none => .error (if startsTooLong s.toList then .integerTooLong else .notIntegerText)

def integerOfDouble (x : Double) : Except ShapeFault Int :=
  match x.toInt? with
  | some n =>
    if -9223372036854775808 < n ∧ n < 9223372036854775808 then .ok n else .error .integerTooLong
  | none => .error (if x.isFinite then .fractional else .notFinite)

def integerOfDecimal (d : Decimal) : Except ShapeFault Int :=
  match d.toInt? with
  | some n => .ok n
  | none => .error (if d.isFinite then .fractional else .notFinite)

def readInteger : Value → Except ShapeFault Int
  | .int n => .ok n
  | .bool b => .ok (if b then 1 else 0)
  | .float x => integerOfDouble x
  | .decimal d => integerOfDecimal d
  | .str s => integerOfText s
  | .brokenText => .error .brokenText
  | _ => .error .notInteger

example : integer? "-0__12.00".toList = some (-12) ∧ integer? "0-_12".toList = some (-12) := by decide +kernel
example : integer? "1_".toList = none ∧ integer? "1.".toList = none := by decide +kernel

end Request
end Provisioning
