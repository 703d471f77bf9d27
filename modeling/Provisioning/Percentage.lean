import Provisioning.Decimal.Reader
import Provisioning.Error

namespace Provisioning

namespace Decimal

/-- `0 ≤ d ≤ 100`; minus zero is zero. -/
def isPercent : Decimal → Bool
  | finite neg c e =>
    c == 0 || !neg &&
      if 0 ≤ e then e ≤ 2 && c * Nat.pow 10 e.toNat ≤ 100
      else digitCount c ≤ (-e).toNat || c ≤ 100 * Nat.pow 10 (-e).toNat
  | _ => false

def isWholeMillionths : Decimal → Bool
  | finite _ c e =>
    c == 0 || -6 ≤ e || (-6 - e).toNat < digitCount c && c % Nat.pow 10 (-6 - e).toNat == 0
  | _ => false

end Decimal

def Value.toDecimal? : Value → Option Decimal
  | .bool _ | .brokenText => none
  | .decimal d => some d
  | v => Decimal.ofText? v.display

/-- Accepts a percentage and gives it back in the spelling in which it came. -/
def checkPercentage (v : Value) : Except Problem Decimal :=
  match v.toDecimal? with
  | none => .error (.notDecimal v)
  | some d =>
    if d.isPercent then
      if d.isWholeMillionths then .ok d else .error (.tooPrecise v)
    else .error (.outOfRange v)

end Provisioning
