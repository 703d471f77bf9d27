import Provisioning.Decimal.Basic
import Provisioning.Text.Blank
import Provisioning.Text.Digit

namespace Provisioning.Decimal

open Text

/-- The text in ASCII: digits of other scripts replaced, underscores left out. -/
def toAscii : List Char → Option (List Char)
  | [] => some []
  | c :: s =>
    if c = '_' then toAscii s
    else if 0 < c.toNat ∧ c.toNat < 0x80 then (toAscii s).map (c :: ·)
    else match digitValue? c with
      | some d => (toAscii s).map (Nat.digitChar d :: ·)
      | none => none

def takeSign : List Char → Bool × List Char
  | '-' :: s => (true, s)
  | '+' :: s => (false, s)
  | s => (false, s)

def takeDigits (s : List Char) : List Char × List Char :=
  (s.takeWhile Char.isDigit, s.dropWhile Char.isDigit)

def numeral (ds : List Char) : Nat := Nat.ofDigitChars 10 ds 0

def readExponent : List Char → Option Int
  | [] => some 0
  | c :: s =>
    if c = 'e' ∨ c = 'E' then
      let (neg, s) := takeSign s
      if s ≠ [] ∧ s.all Char.isDigit then
        some (if neg then -(numeral s : Int) else numeral s)
      else none
    else none

def takeFraction : List Char → List Char × List Char
  | '.' :: s => takeDigits s
  | s => ([], s)

def readNumeral (neg : Bool) (s : List Char) : Option Decimal :=
  let (whole, s) := takeDigits s
  let (fraction, s) := takeFraction s
  if whole = [] ∧ fraction = [] then none else
    match readExponent s with
    | none => none
    | some e =>
      let c := numeral (whole ++ fraction)
      let e := e - fraction.length
      if fits c e then some (finite neg c e) else none

def dropWord : List Char → List Char → Option (List Char)
  | [], s => some s
  | _ :: _, [] => none
  | w :: word, c :: s => if c.toLower = w then dropWord word s else none

def readNan (neg signalling : Bool) (s : List Char) : Option Decimal :=
  if s.all Char.isDigit then some (nan neg signalling (numeral s)) else none

def readSpecial (neg : Bool) (s : List Char) : Option Decimal :=
  match dropWord "inf".toList s with
  | some [] => some (infinite neg)
  | some t => if dropWord "inity".toList t = some [] then some (infinite neg) else none
  | none =>
    match dropWord "nan".toList s with
    | some t => readNan neg false t
    | none => (dropWord "snan".toList s).bind (readNan neg true)

def read? (s : List Char) : Option Decimal :=
  match toAscii (trim isBlank s) with
  | none => none
  | some s =>
    let (neg, s) := takeSign s
    (readNumeral neg s).or (readSpecial neg s)

def ofText? (s : String) : Option Decimal := read? s.toList

example : ofText? " 1_2.50e-1 " = some (finite false 1250 (-3)) := by decide +kernel
example : ofText? "-.5" = some (finite true 5 (-1)) := by decide +kernel
example : ofText? "sNaN012" = some (nan false true 12) := by decide +kernel
example : ofText? "١" = some (finite false 1 0) := by decide +kernel
example : ofText? "." = none ∧ ofText? "1e" = none ∧ ofText? "infinit" = none := by decide +kernel
example : ofText? "0e9999999999999999999" = none := by decide +kernel

end Provisioning.Decimal
