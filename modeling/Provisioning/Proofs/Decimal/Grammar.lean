import Provisioning.Decimal.Reader
import Mathlib.Data.List.Forall2

namespace Provisioning.Decimal

open Text

inductive Sign where
  | none | plus | minus
  deriving DecidableEq

def Sign.text : Sign → List Char
  | none => []
  | plus => ['+']
  | minus => ['-']

def Sign.isMinus : Sign → Bool
  | minus => true
  | _ => false

def AllDigits (s : List Char) : Prop := ∀ c ∈ s, c.isDigit = true

structure Exponent where
  letter : Char
  sign : Sign
  power : List Char

/-- A finite decimal as it is written. The fraction is what follows the point, if there is a point. -/
structure Numeral where
  sign : Sign
  whole : List Char
  fraction : Option (List Char)
  exponent : Option Exponent

namespace Exponent

structure Proper (x : Exponent) : Prop where
  letter : x.letter = 'e' ∨ x.letter = 'E'
  nonempty : x.power ≠ []
  digits : AllDigits x.power

def text (x : Exponent) : List Char := x.letter :: (x.sign.text ++ x.power)

def value (x : Exponent) : Int := if x.sign.isMinus then -(numeral x.power : Int) else numeral x.power

end Exponent

namespace Numeral

def places (n : Numeral) : List Char := n.fraction.getD []

structure Proper (n : Numeral) : Prop where
  whole : AllDigits n.whole
  places : AllDigits n.places
  nonempty : ¬ (n.whole = [] ∧ n.places = [])
  exponent : ∀ x, n.exponent = some x → x.Proper

def pointText : Option (List Char) → List Char
  | none => []
  | some f => '.' :: f

def powerText : Option Exponent → List Char
  | none => []
  | some x => x.text

def body (n : Numeral) : List Char := n.whole ++ (pointText n.fraction ++ powerText n.exponent)

def text (n : Numeral) : List Char := n.sign.text ++ n.body

def coefficient (n : Numeral) : Nat := numeral (n.whole ++ n.places)

def power : Option Exponent → Int
  | none => 0
  | some x => x.value

def scale (n : Numeral) : Int := power n.exponent - n.places.length

def decimal (n : Numeral) : Decimal := finite n.sign.isMinus n.coefficient n.scale

end Numeral

section Signs

variable {s : List Char}

theorem takeSign_of_unsigned (hplus : s.head? ≠ some '+') (hminus : s.head? ≠ some '-') :
    takeSign s = (false, s) := by
  unfold takeSign
  split
  · exact absurd rfl hminus
  · exact absurd rfl hplus
  · rfl

theorem takeSign_text (sign : Sign) (hplus : s.head? ≠ some '+') (hminus : s.head? ≠ some '-') :
    takeSign (sign.text ++ s) = (sign.isMinus, s) := by
  cases sign with
  | none => exact takeSign_of_unsigned hplus hminus
  | plus => rfl
  | minus => rfl

theorem exists_sign (s : List Char) :
    ∃ sign : Sign, sign.text ++ (takeSign s).2 = s ∧ sign.isMinus = (takeSign s).1 := by
  unfold takeSign
  split
  · exact ⟨.minus, rfl, rfl⟩
  · exact ⟨.plus, rfl, rfl⟩
  · exact ⟨.none, rfl, rfl⟩

end Signs

section Digits

variable {ds s : List Char}

theorem AllDigits.append {ds' : List Char} (h : AllDigits ds) (h' : AllDigits ds') :
    AllDigits (ds ++ ds') :=
  fun c hc ↦ (List.mem_append.1 hc).elim (h c) (h' c)

theorem AllDigits.all (h : AllDigits ds) : ds.all Char.isDigit = true := List.all_eq_true.2 h

def NoDigitFirst (s : List Char) : Prop := ∀ c, s.head? = some c → c.isDigit = false

theorem takeDigits_append (hds : AllDigits ds) (hs : NoDigitFirst s) : takeDigits (ds ++ s) = (ds, s) := by
  have hrest : s.takeWhile Char.isDigit = [] ∧ s.dropWhile Char.isDigit = s := by
    cases s with
    | nil => exact ⟨rfl, rfl⟩
    | cons c s =>
      have hc : c.isDigit = false := hs c rfl
      rw [List.takeWhile_cons, List.dropWhile_cons, hc]
      exact ⟨rfl, rfl⟩
  rw [takeDigits, List.takeWhile_append_of_pos hds, List.dropWhile_append_of_pos hds, hrest.1, hrest.2,
    List.append_nil]

theorem allDigits_takeDigits (s : List Char) : AllDigits (takeDigits s).1 :=
  fun _ hc ↦ List.all_eq_true.1 List.all_takeWhile _ hc

theorem takeDigits_fst_append_snd (s : List Char) : (takeDigits s).1 ++ (takeDigits s).2 = s :=
  List.takeWhile_append_dropWhile

theorem AllDigits.head?_ne (h : AllDigits ds) {c : Char} (hc : c.isDigit = false) :
    ds.head? ≠ some c := by
  intro hhead
  rw [h c (List.mem_of_head? hhead)] at hc
  cases hc

end Digits

section Exponents

variable {x : Exponent} {s : List Char} {e : Int}

theorem readExponent_text (hx : x.Proper) : readExponent x.text = some x.value := by
  have hsign : takeSign (x.sign.text ++ x.power) = (x.sign.isMinus, x.power) :=
    takeSign_text x.sign (hx.digits.head?_ne rfl) (hx.digits.head?_ne rfl)
  rw [Exponent.text, readExponent, if_pos hx.letter, hsign]
  dsimp only
  rw [if_pos ⟨hx.nonempty, hx.digits.all⟩, Exponent.value]

theorem exists_exponent_of_read (h : readExponent s = some e) :
    ∃ x : Option Exponent, (∀ y, x = some y → y.Proper) ∧ Numeral.powerText x = s ∧ Numeral.power x = e := by
  cases s with
  | nil => exact ⟨none, nofun, rfl, Option.some.inj h⟩
  | cons c s =>
    obtain ⟨sign, hs, hneg⟩ := exists_sign s
    rw [readExponent] at h
    split at h
    · rename_i hc
      dsimp only at h
      split at h
      · rename_i hdigits
        refine ⟨some ⟨c, sign, (takeSign s).2⟩, ?_, ?_, ?_⟩
        · rintro _ ⟨⟩
          exact ⟨hc, hdigits.1, List.all_eq_true.1 hdigits.2⟩
        · rw [Numeral.powerText, Exponent.text, hs]
        · rw [← hneg] at h
          exact Option.some.inj h
      · cases h
    · cases h

end Exponents

section Numerals

variable {n : Numeral} {s : List Char} {d : Decimal}

theorem noDigitFirst_powerText (hx : ∀ x, n.exponent = some x → x.Proper) :
    NoDigitFirst (Numeral.powerText n.exponent) := by
  intro c hc
  cases hn : n.exponent with
  | none =>
    rw [hn] at hc
    cases hc
  | some x =>
    rw [hn] at hc
    obtain rfl : x.letter = c := Option.some.inj hc
    rcases (hx x hn).letter with h | h <;> rw [h] <;> rfl

theorem takeFraction_text (hn : n.Proper) :
    takeFraction (Numeral.pointText n.fraction ++ Numeral.powerText n.exponent) =
      (n.places, Numeral.powerText n.exponent) := by
  have hpower := noDigitFirst_powerText hn.exponent
  have hplaces := hn.places
  rw [Numeral.places] at hplaces ⊢
  cases hf : n.fraction with
  | some f =>
    rw [hf] at hplaces
    exact takeDigits_append hplaces hpower
  | none =>
    unfold takeFraction
    split
    · rename_i heq
      cases hx : n.exponent with
      | none =>
        rw [hx] at heq
        cases heq
      | some x =>
        rw [hx] at heq
        have hletter : x.letter = '.' := (List.cons.inj heq).1
        rcases (hn.exponent x hx).letter with h | h <;> rw [h] at hletter <;> cases hletter
    · rfl

theorem noDigitFirst_afterWhole (hn : n.Proper) :
    NoDigitFirst (Numeral.pointText n.fraction ++ Numeral.powerText n.exponent) := by
  cases hf : n.fraction with
  | some f =>
    rintro _ ⟨⟩
    rfl
  | none => exact noDigitFirst_powerText hn.exponent

theorem readNumeral_body (hn : n.Proper) :
    readNumeral n.sign.isMinus n.body =
      if fits n.coefficient n.scale then some n.decimal else none := by
  have hpower : readExponent (Numeral.powerText n.exponent) = some (Numeral.power n.exponent) := by
    cases hx : n.exponent with
    | none => rfl
    | some x => exact readExponent_text (hn.exponent x hx)
  rw [readNumeral, Numeral.body, takeDigits_append hn.whole (noDigitFirst_afterWhole hn)]
  dsimp only
  rw [takeFraction_text hn]
  dsimp only
  rw [if_neg hn.nonempty, hpower]
  rfl

theorem head?_body (hn : n.Proper) {c : Char} (hdigit : c.isDigit = false) (hpoint : c ≠ '.') :
    n.body.head? ≠ some c := by
  rw [Numeral.body]
  cases hw : n.whole with
  | cons w ws =>
    have hwd : w.isDigit = true := hn.whole w (hw ▸ List.mem_cons_self)
    rintro ⟨⟩
    rw [hwd] at hdigit
    cases hdigit
  | nil =>
    cases hf : n.fraction with
    | some f =>
      rintro ⟨⟩
      exact hpoint rfl
    | none =>
      refine absurd ⟨hw, ?_⟩ hn.nonempty
      rw [Numeral.places, hf]
      rfl

theorem takeSign_numeral (hn : n.Proper) : takeSign n.text = (n.sign.isMinus, n.body) :=
  takeSign_text n.sign (head?_body hn rfl (by decide)) (head?_body hn rfl (by decide))

theorem exists_fraction (s : List Char) :
    ∃ f : Option (List Char), Numeral.pointText f ++ (takeFraction s).2 = s ∧
      f.getD [] = (takeFraction s).1 ∧ AllDigits (takeFraction s).1 := by
  unfold takeFraction
  split
  · rename_i s
    refine ⟨some (takeDigits s).1, ?_, rfl, allDigits_takeDigits s⟩
    rw [Numeral.pointText, List.cons_append, takeDigits_fst_append_snd]
  · exact ⟨none, rfl, rfl, nofun⟩

theorem exists_numeral_of_readNumeral (h : readNumeral (takeSign s).1 (takeSign s).2 = some d) :
    ∃ n : Numeral, n.Proper ∧ n.text = s ∧ n.decimal = d ∧ d.Representable := by
  obtain ⟨sign, hsign, hneg⟩ := exists_sign s
  have hwhole := takeDigits_fst_append_snd (takeSign s).2
  have hwholedigits := allDigits_takeDigits (takeSign s).2
  rw [readNumeral] at h
  dsimp only at h
  obtain ⟨f, hfraction, hplaces, hplacesdigits⟩ := exists_fraction (takeDigits (takeSign s).2).2
  split at h
  · cases h
  · rename_i hnonempty
    split at h
    · cases h
    · rename_i e hread
      obtain ⟨x, hx, hpower, he⟩ := exists_exponent_of_read hread
      split at h
      · rename_i hfits
        refine ⟨⟨sign, (takeDigits (takeSign s).2).1, f, x⟩, ⟨hwholedigits, ?_, ?_, hx⟩, ?_, ?_, ?_⟩
        · rw [Numeral.places, hplaces]
          exact hplacesdigits
        · rw [Numeral.places, hplaces]
          exact hnonempty
        · rw [Numeral.text, Numeral.body, hpower, hfraction, hwhole, hsign]
        · rw [← Option.some.inj h, Numeral.decimal, Numeral.coefficient, Numeral.scale, Numeral.places,
            hplaces, hneg, he]
        · rw [← Option.some.inj h]
          exact hfits
      · cases h

end Numerals

section Special

variable {neg : Bool} {s : List Char} {d : Decimal}

theorem isFinite_of_readSpecial (h : readSpecial neg s = some d) : d.isFinite = false := by
  have hnan : ∀ {signalling t}, readNan neg signalling t = some d → d.isFinite = false := by
    intro signalling t ht
    rw [readNan] at ht
    split at ht
    · rw [← Option.some.inj ht]
      rfl
    · cases ht
  rw [readSpecial] at h
  split at h
  · rw [← Option.some.inj h]
    rfl
  · split at h
    · rw [← Option.some.inj h]
      rfl
    · cases h
  · split at h
    · exact hnan h
    · obtain ⟨t, -, ht⟩ := Option.bind_eq_some_iff.1 h
      exact hnan ht

end Special

section Ascii

inductive CountsAs : Char → Char → Prop
  | ascii {c : Char} : 0 < c.toNat → c.toNat < 0x80 → CountsAs c c
  | digit {c : Char} {v : Nat} : 0x80 ≤ c.toNat → digitValue? c = some v → CountsAs c (Nat.digitChar v)

variable {c : Char} {s t : List Char}

theorem digitValue?_of_toNat_eq_zero (h : c.toNat = 0) : digitValue? c = none := by
  have hzeros : ∀ z ∈ zeros, 0 < z := by decide
  rw [digitValue?, Option.map_eq_none_iff, List.find?_eq_none]
  intro z hz hcovers
  have hpos := hzeros z hz
  simp only [h, Bool.and_eq_true, decide_eq_true_eq] at hcovers
  omega

theorem toAscii_eq_some_iff :
    toAscii s = some t ↔ List.Forall₂ CountsAs (s.filter fun c ↦ c ≠ '_') t := by
  induction s generalizing t with
  | nil => rw [toAscii, List.filter_nil, List.forall₂_nil_left_iff, Option.some.injEq, eq_comm]
  | cons c s ih =>
    rw [toAscii]
    split
    · rename_i hc
      rw [List.filter_cons_of_neg (by simp [hc]), ih]
    · rename_i hc
      rw [List.filter_cons_of_pos (by simp [hc]), List.forall₂_cons_left_iff]
      split
      · rename_i hascii
        rw [Option.map_eq_some_iff]
        constructor
        · rintro ⟨u, hu, rfl⟩
          exact ⟨c, u, .ascii hascii.1 hascii.2, ih.1 hu, rfl⟩
        · rintro ⟨d, u, hd, hu, rfl⟩
          cases hd with
          | ascii _ _ => exact ⟨u, ih.2 hu, rfl⟩
          | digit hlarge _ => omega
      · rename_i hascii
        cases hv : digitValue? c with
        | none =>
          refine iff_of_false nofun ?_
          rintro ⟨d, u, hd, -, -⟩
          cases hd with
          | ascii hpos hlt => exact hascii ⟨hpos, hlt⟩
          | digit _ hsome => cases hv.symm.trans hsome
        | some v =>
          have hlarge : 0x80 ≤ c.toNat := by
            by_contra hsmall
            have hzero : c.toNat = 0 := by omega
            cases hv.symm.trans (digitValue?_of_toNat_eq_zero hzero)
          simp only [Option.map_eq_some_iff]
          constructor
          · rintro ⟨u, hu, rfl⟩
            exact ⟨Nat.digitChar v, u, .digit hlarge hv, ih.1 hu, rfl⟩
          · rintro ⟨d, u, hd, hu, rfl⟩
            cases hd with
            | ascii _ hlt => omega
            | digit _ hsome =>
              obtain rfl := Option.some.inj (hv.symm.trans hsome)
              exact ⟨u, ih.2 hu, rfl⟩

end Ascii

/-- A text spells a finite decimal if, without the blanks around it and the underscores in it, it is a
numeral in the digits of any script, with an exponent within the limits. -/
def Spelled (s : List Char) (d : Decimal) : Prop :=
  ∃ n : Numeral, n.Proper ∧ List.Forall₂ CountsAs ((trim isBlank s).filter fun c ↦ c ≠ '_') n.text ∧
    n.decimal = d ∧ d.Representable

theorem read?_eq_some_iff_spelled {s : List Char} {d : Decimal} :
    read? s = some d ∧ d.isFinite = true ↔ Spelled s d := by
  rw [read?]
  constructor
  · rintro ⟨h, hfinite⟩
    split at h
    · cases h
    · rename_i t ht
      dsimp only at h
      rcases Option.or_eq_some_iff.1 h with h | ⟨-, h⟩
      · obtain ⟨n, hn, rfl, hd, hfits⟩ := exists_numeral_of_readNumeral h
        exact ⟨n, hn, toAscii_eq_some_iff.1 ht, hd, hfits⟩
      · rw [isFinite_of_readSpecial h] at hfinite
        cases hfinite
  · rintro ⟨n, hn, ht, rfl, hfits⟩
    have hfits : fits n.coefficient n.scale = true := hfits
    rw [toAscii_eq_some_iff.2 ht]
    dsimp only
    rw [takeSign_numeral hn]
    dsimp only
    rw [readNumeral_body hn, if_pos hfits]
    exact ⟨rfl, rfl⟩

end Provisioning.Decimal
