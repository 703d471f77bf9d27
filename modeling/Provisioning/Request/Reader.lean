import Provisioning.Percentage
import Provisioning.Request.Integer

namespace Provisioning.Request

abbrev Reader (α : Type) := Value → Except Refusal α

/-- A field that may be left out or be `null`, and each of these means something. -/
inductive Presence (α : Type) where
  | absent
  | null
  | given (a : α)
  deriving DecidableEq, Repr

namespace Presence

def value? : Presence α → Option α
  | given a => some a
  | _ => none

def isAbsent : Presence α → Bool
  | absent => true
  | _ => false

end Presence

inductive Origin where
  | call | body
  deriving DecidableEq, Repr

def Origin.notObject : Origin → Form → ShapeFault
  | call, form => .notForm form
  | body, _ => .notObject

def here (read : Value → Except ShapeFault α) : Reader α :=
  fun v ↦ (read v).mapError fun fault ↦ ⟨[], fault⟩

def integer : Reader Int := here readInteger

def readDecimal (v : Value) : Except ShapeFault Decimal :=
  match v with
  | .int _ | .float _ | .decimal _ | .str _ | .brokenText =>
    match v.toDecimal? with
    | none => .error .notDecimalText
    | some d => if d.isFinite then .ok d else .error .notFinite
  | _ => .error .notNumeric

def decimal : Reader Decimal := here readDecimal

def readName : Value → Except ShapeFault String
  | .str s =>
    if s.isEmpty then .error .emptyText
    else if maxNameLength < s.length then .error .longText
    else .ok s
  | .brokenText => .error .brokenText
  | _ => .error .notText

def name : Reader String := here readName

def items (read : Reader α) : Nat → List Value → Except Refusal (List α)
  | _, [] => .ok []
  | n, v :: vs => do
    let a ← (read v).mapError (Refusal.under (.index n))
    return a :: (← items read (n + 1) vs)

def list (read : Reader α) : Reader (List α)
  | .list vs => items read 0 vs
  | _ => .error ⟨[], .notList⟩

def nonEmptyList (read : Reader α) : Reader (List α) := fun v ↦ do
  let vs ← list read v
  if vs.isEmpty then .error ⟨[], .emptyList⟩ else return vs

def field (read : Reader α) (key : String) : Reader α :=
  fun v ↦ (read v).mapError (Refusal.under (.key key))

def required (read : Reader α) (fields : Value.Fields) (key : String) : Except Refusal α :=
  match fields.get? key with
  | none => .error ⟨[.key key], .missing⟩
  | some v => field read key v

def optional (read : Reader α) (fields : Value.Fields) (key : String) :
    Except Refusal (Option α) :=
  match fields.get? key with
  | none => .ok none
  | some v => (field read key v).map some

def nullable (read : Reader α) (fields : Value.Fields) (key : String) :
    Except Refusal (Presence α) :=
  match fields.get? key with
  | none => .ok .absent
  | some .null => .ok .null
  | some v => (field read key v).map .given

def checkKeys (known : List String) (fields : Value.Fields) : Except Refusal Unit :=
  match fields.keys.find? fun key ↦ !known.contains key with
  | some key => .error ⟨[.key key], .unknownKey⟩
  | none => .ok ()

end Provisioning.Request
