import Provisioning.Value.Basic

namespace Provisioning.Json

inductive ReadError where
  /-- Reading stopped with so many characters of the text left. -/
  | malformed (left : Nat)
  | numberTooLong
  deriving DecidableEq, Repr

abbrev Result (α : Type) := Except ReadError (α × List Char)

def stopAt (s : List Char) : Result α := .error (.malformed s.length)

def isWhite (c : Char) : Bool := c = ' ' || c = '\t' || c = '\n' || c = '\r'

def skipWhite (s : List Char) : List Char := s.dropWhile isWhite

def hexValue? (c : Char) : Option Nat :=
  if '0' ≤ c ∧ c ≤ '9' then some (c.toNat - '0'.toNat)
  else if 'a' ≤ c ∧ c ≤ 'f' then some (c.toNat - 'a'.toNat + 10)
  else if 'A' ≤ c ∧ c ≤ 'F' then some (c.toNat - 'A'.toNat + 10)
  else none

def hexUnit? (a b c d : Char) : Option Nat := do
  return (((← hexValue? a) * 16 + (← hexValue? b)) * 16 + (← hexValue? c)) * 16 + (← hexValue? d)

def simpleEscape? : Char → Option Char
  | '"' => some '"'
  | '\\' => some '\\'
  | '/' => some '/'
  | 'b' => some '\x08'
  | 'f' => some '\x0c'
  | 'n' => some '\n'
  | 'r' => some '\r'
  | 't' => some '\t'
  | _ => none

/-- The code units of a string, after its opening quote. An escape by number needs a character after
its four digits; a string without end is refused at its opening quote. -/
def readUnits (opening : List Char) : List Char → Result (List Nat)
  | [] => stopAt opening
  | '"' :: s => .ok ([], s)
  | '\\' :: 'u' :: a :: b :: c :: d :: e :: s =>
    match hexUnit? a b c d with
    | none => stopAt ('u' :: a :: b :: c :: d :: e :: s)
    | some n => (readUnits opening (e :: s)).map fun (ns, r) ↦ (n :: ns, r)
  | '\\' :: 'u' :: s => stopAt ('u' :: s)
  | ['\\'] => stopAt opening
  | '\\' :: c :: s =>
    match simpleEscape? c with
    | none => stopAt ('\\' :: c :: s)
    | some x => (readUnits opening s).map fun (ns, r) ↦ (x.toNat :: ns, r)
  | c :: s =>
    if c.toNat < 0x20 then stopAt (c :: s)
    else (readUnits opening s).map fun (ns, r) ↦ (c.toNat :: ns, r)

def isHigh (n : Nat) : Bool := 0xD800 ≤ n && n < 0xDC00

def isLow (n : Nat) : Bool := 0xDC00 ≤ n && n < 0xE000

/-- The characters of code units, and whether every surrogate had its partner. -/
def joinUnits : List Nat → List Char × Bool
  | [] => ([], true)
  | [n] => if isHigh n || isLow n then (['\ufffd'], false) else ([Char.ofNat n], true)
  | n :: m :: ns =>
    if isHigh n && isLow m then
      let (cs, whole) := joinUnits ns
      (Char.ofNat (0x10000 + (n - 0xD800) * 0x400 + (m - 0xDC00)) :: cs, whole)
    else
      let (cs, whole) := joinUnits (m :: ns)
      if isHigh n || isLow n then ('\ufffd' :: cs, false) else (Char.ofNat n :: cs, whole)

def textOf (units : List Nat) : String := String.ofList (joinUnits units).1

def stringOf (units : List Nat) : Value :=
  if (joinUnits units).2 then .str (textOf units) else .brokenText

def takeDigits (s : List Char) : List Char × List Char :=
  (s.takeWhile Char.isDigit, s.dropWhile Char.isDigit)

def takeWhole : List Char → List Char × List Char
  | '0' :: s => (['0'], s)
  | s => takeDigits s

def takeFraction (s : List Char) : List Char × List Char :=
  match s with
  | '.' :: t => if (takeDigits t).1 = [] then ([], s) else takeDigits t
  | _ => ([], s)

def takeExponent (s : List Char) : Option Int × List Char :=
  match s with
  | c :: t =>
    if c = 'e' ∨ c = 'E' then
      let (neg, t) := match t with
        | '-' :: t => (true, t)
        | '+' :: t => (false, t)
        | _ => (false, t)
      let (ds, r) := takeDigits t
      if ds = [] then (none, s)
      else
        let e : Int := Nat.ofDigitChars 10 ds 0
        (some (if neg then -e else e), r)
    else (none, s)
  | [] => (none, s)

def readNumber (start : List Char) (neg : Bool) (s : List Char) : Result Value :=
  let (whole, s) := takeWhole s
  if whole = [] then stopAt start else
    let (fraction, s) := takeFraction s
    let (exponent, s) := takeExponent s
    if fraction = [] ∧ exponent = none then
      if maxDigits < whole.length then .error .numberTooLong
      else
        let n : Int := Nat.ofDigitChars 10 whole 0
        .ok (.int (if neg then -n else n), s)
    else
      let c := Nat.ofDigitChars 10 (whole ++ fraction) 0
      .ok (.float (.ofScientific neg c (exponent.getD 0 - fraction.length)), s)

def readScalar : List Char → Result Value
  | 'n' :: 'u' :: 'l' :: 'l' :: s => .ok (.null, s)
  | 't' :: 'r' :: 'u' :: 'e' :: s => .ok (.bool true, s)
  | 'f' :: 'a' :: 'l' :: 's' :: 'e' :: s => .ok (.bool false, s)
  | 'N' :: 'a' :: 'N' :: s => .ok (.float .nan, s)
  | 'I' :: 'n' :: 'f' :: 'i' :: 'n' :: 'i' :: 't' :: 'y' :: s => .ok (.float (.infinite false), s)
  | '-' :: 'I' :: 'n' :: 'f' :: 'i' :: 'n' :: 'i' :: 't' :: 'y' :: s =>
    .ok (.float (.infinite true), s)
  | '-' :: s => readNumber ('-' :: s) true s
  | s => readNumber s false s

mutual

/-- Reads one value. Each step down takes one unit of fuel, and none takes more steps than the text
has characters, twice over. -/
def readValue : Nat → List Char → Result Value
  | 0, s => stopAt s
  | fuel + 1, s =>
    match s with
    | '"' :: t => (readUnits s t).map fun (ns, r) ↦ (stringOf ns, r)
    | '[' :: t =>
      match skipWhite t with
      | ']' :: r => .ok (.list [], r)
      | r => (readItems fuel r).map fun (vs, r) ↦ (.list vs, r)
    | '\x7b' :: t =>
      match skipWhite t with
      | '\x7d' :: r => .ok (.object [], r)
      | r => readFields fuel true [] r
    | _ => readScalar s

def readItems : Nat → List Char → Result (List Value)
  | 0, s => stopAt s
  | fuel + 1, s =>
    match readValue fuel s with
    | .error e => .error e
    | .ok (v, r) =>
      match skipWhite r with
      | ']' :: t => .ok ([v], t)
      | ',' :: t => (readItems fuel (skipWhite t)).map fun (vs, r) ↦ (v :: vs, r)
      | t => stopAt t

/-- Keys and values with commas between them, up to the closing brace. One key that is no text makes the
whole object a broken one. -/
def readFields : Nat → Bool → Value.Fields → List Char → Result Value
  | 0, _, _, s => stopAt s
  | fuel + 1, whole, acc, s =>
    match s with
    | '"' :: t =>
      match readUnits s t with
      | .error e => .error e
      | .ok (key, r) =>
        match skipWhite r with
        | ':' :: t =>
          match readValue fuel (skipWhite t) with
          | .error e => .error e
          | .ok (v, r) =>
            let acc := acc.insert (textOf key) v
            let whole := whole && (joinUnits key).2
            match skipWhite r with
            | '\x7d' :: t => .ok (if whole then .object acc else .brokenObject acc, t)
            | ',' :: t => readFields fuel whole acc (skipWhite t)
            | t => stopAt t
        | t => stopAt t
    | _ => stopAt s

end

def read (s : List Char) : Except ReadError Value :=
  match readValue (2 * s.length + 2) (skipWhite s) with
  | .error e => .error e
  | .ok (v, r) => if skipWhite r = [] then .ok v else .error (.malformed (skipWhite r).length)

def parse (s : String) : Except ReadError Value := read s.toList

end Provisioning.Json
