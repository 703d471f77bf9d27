import Provisioning.Proofs.Request.Admissible

namespace Provisioning.Request

variable {α : Type} {v w : Value} {d : Decimal}

section Numbers

/-- The values give the same whole number. -/
def SameInteger (v w : Value) : Prop := ∃ n, SpellsInteger n v ∧ SpellsInteger n w

/-- The value stands for a decimal, which need not be finite. Every decimal has a text of its own. -/
inductive StandsFor : Value → Decimal → Prop
  | spelled {v : Value} {d : Decimal} (h : SpellsDecimal d v) : StandsFor v d
  | decimal (d : Decimal) : StandsFor (.decimal d) d
  | text {d : Decimal} (h : d.Representable) : StandsFor (.str d.text) d
  | infinite (negative : Bool) : StandsFor (.float (.infinite negative)) (.infinite negative)
  | nan : StandsFor (.float .nan) (.nan false false 0)

/-- The values stand for the same decimal, with the same digits and the same exponent. -/
def SamePercentage (v w : Value) : Prop := ∃ d, StandsFor v d ∧ StandsFor w d

theorem readDecimal_of_standsFor (h : StandsFor v d) :
    readDecimal v = if d.isFinite then .ok d else .error .notFinite := by
  cases h with
  | spelled h =>
    have hread := readDecimal_eq_ok_iff.2 h
    have hnumeric : ¬ NotNumeric v := by
      cases v <;> simp_all [NotNumeric, SpellsDecimal]
    rw [hread, if_pos ((readDecimal_eq_ok_iff_toDecimal? hnumeric).1 hread).2]
  | decimal d => rfl
  | text h => simp [readDecimal, Value.toDecimal?, Value.display, Decimal.ofText?_text h]
  | infinite negative => cases negative <;> decide +kernel
  | nan => decide +kernel

end Numbers

/-- The reader gives the same answer for related values, and none of them is `null`. -/
structure Blind (read : Reader α) (R : Value → Value → Prop) : Prop where
  eq : ∀ v w, R v w → read v = read w
  ne_null : ∀ v w, R v w → v ≠ .null ∧ w ≠ .null

theorem Blind.mono {read : Reader α} {R S : Value → Value → Prop} (h : Blind read R)
    (hRS : ∀ v w, S v w → R v w) : Blind read S :=
  ⟨fun v w hvw ↦ h.eq v w (hRS v w hvw), fun v w hvw ↦ h.ne_null v w (hRS v w hvw)⟩

theorem blind_integer : Blind integer SameInteger where
  eq := by
    rintro v w ⟨n, hv, hw⟩
    simp only [integer, here, readInteger_eq_ok_iff.2 hv, readInteger_eq_ok_iff.2 hw]
  ne_null := by
    rintro v w ⟨n, hv, hw⟩
    constructor <;> rintro rfl <;> simp [SpellsInteger] at hv hw

theorem StandsFor.ne_null (h : StandsFor v d) : v ≠ .null := by
  rintro rfl
  cases h with
  | spelled h => exact h

theorem blind_decimal : Blind decimal SamePercentage where
  eq := by
    rintro v w ⟨d, hv, hw⟩
    simp only [decimal, here, readDecimal_of_standsFor hv, readDecimal_of_standsFor hw]
  ne_null := by
    rintro v w ⟨d, hv, hw⟩
    exact ⟨hv.ne_null, hw.ne_null⟩

inductive ItemsRelated (R : Value → Value → Prop) : Value → Value → Prop
  | list {vs ws : List Value} (h : List.Forall₂ (fun v w ↦ v = w ∨ R v w) vs ws) :
    ItemsRelated R (.list vs) (.list ws)

inductive FieldsRelated (R : String → Value → Value → Prop) : Value → Value → Prop
  | object {fields fields' : Value.Fields}
    (h : List.Forall₂ (fun f g ↦ f.1 = g.1 ∧ (f.2 = g.2 ∨ R f.1 f.2 g.2)) fields fields') :
    FieldsRelated R (.object fields) (.object fields')

section Lists

variable {read : Reader α} {R : Value → Value → Prop}

theorem Blind.items_eq (h : Blind read R) {vs ws : List Value}
    (hvs : List.Forall₂ (fun v w ↦ v = w ∨ R v w) vs ws) (k : ℕ) : items read k vs = items read k ws := by
  induction hvs generalizing k with
  | nil => rfl
  | @cons v w _ _ hvw _ ih =>
    have hread : read v = read w := hvw.elim (congrArg read) (h.eq v w)
    simp only [items, hread, ih]

theorem Blind.list (h : Blind read R) : Blind (list read) (ItemsRelated R) where
  eq := by
    rintro _ _ ⟨hvs⟩
    exact h.items_eq hvs 0
  ne_null := by
    rintro _ _ ⟨-⟩
    simp

theorem Blind.nonEmptyList (h : Blind read R) : Blind (nonEmptyList read) (ItemsRelated R) where
  eq := by
    intro v w hvw
    simp only [Request.nonEmptyList, h.list.eq v w hvw]
  ne_null := h.list.ne_null

end Lists

section Fields

variable {read : Reader α} {R : String → Value → Value → Prop} {fields fields' : Value.Fields} {key : String}
  (hfields : List.Forall₂ (fun f g ↦ f.1 = g.1 ∧ (f.2 = g.2 ∨ R f.1 f.2 g.2)) fields fields')

include hfields

theorem get?_related (key : String) :
    fields.get? key = fields'.get? key ∨
      ∃ v w, fields.get? key = some v ∧ fields'.get? key = some w ∧ R key v w := by
  induction hfields with
  | nil => exact .inl rfl
  | @cons f g fs gs hfg _ ih =>
    obtain ⟨k, v⟩ := f
    obtain ⟨k', w⟩ := g
    obtain ⟨hk, hvw⟩ := hfg
    obtain rfl : k = k' := hk
    simp only [Value.Fields.get?, List.lookup_cons] at ih ⊢
    by_cases hkey : key = k
    · subst hkey
      simpa using hvw
    · simpa only [beq_eq_false_iff_ne.2 hkey] using ih

theorem checkKeys_related (known : List String) : checkKeys known fields = checkKeys known fields' := by
  have hkeys : fields.keys = fields'.keys := by
    induction hfields with
    | nil => rfl
    | cons hfg _ ih => exact congrArg₂ List.cons hfg.1 ih
  rw [checkKeys, checkKeys, hkeys]

variable (h : Blind read (R key))

include h

theorem required_related : required read fields key = required read fields' key := by
  rcases get?_related hfields key with hsame | ⟨v, w, hv, hw, hvw⟩
  · rw [required, required, hsame]
  · simp only [required, hv, hw, field, h.eq v w hvw]

theorem optional_related : optional read fields key = optional read fields' key := by
  rcases get?_related hfields key with hsame | ⟨v, w, hv, hw, hvw⟩
  · rw [optional, optional, hsame]
  · simp only [optional, hv, hw, field, h.eq v w hvw]

theorem nullable_related : nullable read fields key = nullable read fields' key := by
  rcases get?_related hfields key with hsame | ⟨v, w, hv, hw, hvw⟩
  · rw [nullable, nullable, hsame]
  · -- `null` would not be read at all, so the match opens only once it is excluded
    obtain ⟨hvnull, hwnull⟩ := h.ne_null v w hvw
    simp only [nullable, hv, hw, field, h.eq v w hvw]

end Fields

/-- Each field of a band is a number, the percentage a decimal and the others whole. -/
def BandEntry.Renumbers (key : String) (v w : Value) : Prop :=
  if key = "provisioning_percentage" then SamePercentage v w else SameInteger v w

def BandEntry.Respelled : Value → Value → Prop := FieldsRelated BandEntry.Renumbers

theorem BandEntry.blind_read (origin : Origin) : Blind (BandEntry.read origin) BandEntry.Respelled where
  eq := by
    rintro _ _ ⟨hfields⟩
    have hpercentage : Blind decimal (BandEntry.Renumbers "provisioning_percentage") :=
      blind_decimal.mono fun v w h ↦ by simpa [Renumbers] using h
    have hwhole (key : String) (hkey : key ≠ "provisioning_percentage") :
        Blind integer (BandEntry.Renumbers key) :=
      blind_integer.mono fun v w h ↦ by simpa [Renumbers, hkey] using h
    simp only [BandEntry.read, nullable_related hfields (hwhole "id" (by decide)),
      required_related hfields (hwhole "category_id" (by decide)),
      required_related hfields (hwhole "min_age" (by decide)),
      required_related hfields (hwhole "max_age" (by decide)),
      required_related hfields hpercentage,
      required_related hfields (hwhole "liability_account" (by decide)),
      required_related hfields (hwhole "expense_account" (by decide)),
      checkKeys_related hfields]
  ne_null := by
    rintro _ _ ⟨-⟩
    simp

/-- The numbers of a request are in its bands and in its list of products. -/
def Renumbers (key : String) (v w : Value) : Prop :=
  key = "definitions" ∧ ItemsRelated BandEntry.Respelled v w ∨
    key = "loan_products" ∧ ItemsRelated SameInteger v w

/-- The requests are the same but for the spelling of their numbers. -/
def Respelled : Value → Value → Prop := FieldsRelated Renumbers

section Requests

theorem blind_name : Blind Request.name (Renumbers "criteria_name") := by
  constructor <;> simp [Renumbers]

theorem blind_products : Blind (list integer) (Renumbers "loan_products") :=
  blind_integer.list.mono fun v w h ↦ by simpa [Renumbers] using h

variable (origin : Origin)

theorem NewCriteria.read_respelled (h : Respelled v w) :
    NewCriteria.read origin v = NewCriteria.read origin w := by
  obtain ⟨hfields⟩ := h
  have hbands : Blind (nonEmptyList (BandEntry.read origin)) (Renumbers "definitions") :=
    (BandEntry.blind_read origin).nonEmptyList.mono fun v w h ↦ by simpa [Renumbers] using h
  simp only [NewCriteria.read, required_related hfields blind_name, required_related hfields hbands,
    optional_related hfields blind_products, checkKeys_related hfields]

theorem Changes.read_respelled (h : Respelled v w) : Changes.read origin v = Changes.read origin w := by
  obtain ⟨hfields⟩ := h
  have hbands : Blind (list (BandEntry.read origin)) (Renumbers "definitions") :=
    (BandEntry.blind_read origin).list.mono fun v w h ↦ by simpa [Renumbers] using h
  simp only [Changes.read, nullable_related hfields blind_name, nullable_related hfields hbands,
    nullable_related hfields blind_products, checkKeys_related hfields]

end Requests

end Provisioning.Request
