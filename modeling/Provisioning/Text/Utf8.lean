namespace Provisioning.Text

structure Utf8Tail where
  owed : Nat
  low : Nat
  high : Nat
  bits : Nat

def utf8Start (b : Nat) : List Char × Option Utf8Tail :=
  if b < 0x80 then ([Char.ofNat b], none)
  else if b < 0xC2 then (['\ufffd'], none)
  else if b < 0xE0 then ([], some ⟨1, 0x80, 0xBF, b - 0xC0⟩)
  else if b < 0xF0 then
    ([], some ⟨2, if b = 0xE0 then 0xA0 else 0x80, if b = 0xED then 0x9F else 0xBF, b - 0xE0⟩)
  else if b < 0xF5 then
    ([], some ⟨3, if b = 0xF0 then 0x90 else 0x80, if b = 0xF4 then 0x8F else 0xBF, b - 0xF0⟩)
  else (['\ufffd'], none)

def ofUtf8From : Option Utf8Tail → List Nat → List Char
  | none, [] => []
  | some _, [] => ['\ufffd']
  | none, b :: s =>
    let (cs, t) := utf8Start b
    cs ++ ofUtf8From t s
  | some t, b :: s =>
    if t.low ≤ b ∧ b ≤ t.high then
      let bits := t.bits * 64 + (b - 0x80)
      if t.owed ≤ 1 then Char.ofNat bits :: ofUtf8From none s
      else ofUtf8From (some ⟨t.owed - 1, 0x80, 0xBF, bits⟩) s
    else
      let (cs, t) := utf8Start b
      '\ufffd' :: cs ++ ofUtf8From t s

def ofUtf8 (bytes : List Nat) : List Char := ofUtf8From none bytes

def utf8 (c : Char) : List Nat := (String.utf8EncodeChar c).map UInt8.toNat

end Provisioning.Text
