import Provisioning.Error
import Provisioning.Proofs.Double.Text
import Provisioning.Proofs.Request.Demand
import Provisioning.Proofs.Request.Integer
import Provisioning.Request.Basic

namespace Provisioning

def Path.dotted (p : Path) : String := String.intercalate "." (p.map Step.text)

theorem Step.text_eq_empty_iff {s : Step} : s.text = "" ↔ s = .key "" := by
  cases s with
  | key name => rw [Step.text, Step.key.injEq]
  | index n =>
    refine iff_of_false (fun h ↦ ?_) nofun
    have hdigits : digits n = [] := by simpa [Step.text, digits] using congrArg String.toList h
    exact Decimal.digits_ne_nil n hdigits

theorem Path.dotted_eq_empty_iff {p : Path} : p.dotted = "" ↔ p = [] ∨ p = [.key ""] := by
  match p with
  | [] => exact iff_of_true rfl (.inl rfl)
  | [s] =>
    have hdotted : Path.dotted [s] = s.text := String.intercalate_singleton
    rw [hdotted, Step.text_eq_empty_iff]
    simp
  | s :: t :: p =>
    refine iff_of_false (fun h ↦ ?_) (by simp)
    have hlength := congrArg String.length h
    rw [Path.dotted, List.map_cons, List.map_cons, String.intercalate_cons_cons, String.length_append,
      String.length_append] at hlength
    have hpoint : ".".length = 1 := rfl
    have hempty : "".length = 0 := rfl
    omega

/-- A key without characters, at the root, is taken for the root itself. -/
theorem Path.text_eq (p : Path) :
    p.text = if p = [] ∨ p = [.key ""] then "payload" else p.dotted := by
  by_cases h : p = [] ∨ p = [.key ""]
  · rw [if_pos h]
    exact if_pos (Path.dotted_eq_empty_iff.2 h)
  · rw [if_neg h]
    exact if_neg (mt Path.dotted_eq_empty_iff.1 h)

namespace Request

section Forms

/-- What a request may give as a percentage: a decimal that is finite, or what is written as one. A whole
number is written with its digits and a double with the fewest that tell it from others. -/
def DecimalForm : Value → Prop
  | .int n => (Decimal.ofInt n).Representable
  | .float x => ∃ d, Decimal.Spelled x.toText d
  | .decimal d => d.isFinite = true
  | .str s => ∃ d, Decimal.Spelled s.toList d
  | _ => False

def NameForm : Value → Prop
  | .str s => 1 ≤ s.length ∧ s.length ≤ 200
  | _ => False

variable {v : Value}

def NotNumeric : Value → Prop
  | .int _ | .float _ | .decimal _ | .str _ => False
  | _ => True

theorem readDecimal_eq_ok_iff_toDecimal? {d : Decimal} (h : ¬ NotNumeric v) :
    readDecimal v = .ok d ↔ v.toDecimal? = some d ∧ d.isFinite = true := by
  have hread : readDecimal v = v.toDecimal?.elim (.error .notDecimalText) fun d ↦
      if d.isFinite then .ok d else .error .notFinite := by
    cases v with
    | int _ | float _ | decimal _ | str _ =>
      rw [readDecimal]
      generalize Value.toDecimal? _ = o
      cases o <;> rfl
    | _ => exact absurd trivial h
  rw [hread]
  cases v.toDecimal? with
  | none => simp
  | some e =>
    by_cases he : e.isFinite = true
    · simp only [Option.elim_some, he, ↓reduceIte, Except.ok.injEq, Option.some.injEq]
      exact ⟨fun h ↦ ⟨h, h ▸ he⟩, And.left⟩
    · simp only [Option.elim_some, he, Bool.false_eq_true, ↓reduceIte, reduceCtorEq, Option.some.injEq, false_iff]
      rintro ⟨rfl, hfinite⟩
      exact he hfinite

def SpellsDecimal (d : Decimal) : Value → Prop
  | .int n => Decimal.ofInt n = d ∧ d.Representable
  | .float x => Decimal.Spelled x.toText d
  | .decimal e => e = d ∧ d.isFinite = true
  | .str s => Decimal.Spelled s.toList d
  | _ => False

theorem readDecimal_eq_ok_iff {d : Decimal} : readDecimal v = .ok d ↔ SpellsDecimal d v := by
  have htext {s : List Char} (hs : v.toDecimal? = Decimal.read? s) (h : ¬ NotNumeric v) :
      readDecimal v = .ok d ↔ Decimal.Spelled s d := by
    rw [readDecimal_eq_ok_iff_toDecimal? h, hs, Decimal.read?_eq_some_iff_spelled]
  cases v with
  | int n =>
    have hinspect : Value.inspect (.int n) = (toString n).toList := rfl
    have hn : Value.toDecimal? (.int n) =
        Decimal.read? (String.ofList (Value.inspect (.int n))).toList := rfl
    rw [String.toList_ofList, hinspect] at hn
    rw [htext hn id, Decimal.spelled_toString_iff, SpellsDecimal]
  | float x =>
    have hinspect : Value.inspect (.float x) = x.toText := rfl
    have hx : Value.toDecimal? (.float x) =
        Decimal.read? (String.ofList (Value.inspect (.float x))).toList := rfl
    rw [String.toList_ofList, hinspect] at hx
    rw [htext hx id, SpellsDecimal]
  | str s => exact htext rfl id
  | decimal e => rw [readDecimal_eq_ok_iff_toDecimal? id, SpellsDecimal, Value.toDecimal?, Option.some.injEq]
  | _ => simp [readDecimal, SpellsDecimal, Value.toDecimal?]

theorem exists_readDecimal_iff : (∃ d, readDecimal v = .ok d) ↔ DecimalForm v := by
  simp only [readDecimal_eq_ok_iff]
  cases v <;> simp [SpellsDecimal, DecimalForm]

/-- Of the doubles of 64 bits, the finite ones may be given as percentages. -/
theorem decimalForm_ofScientific_iff (neg : Bool) (c : ℕ) (e : ℤ) :
    DecimalForm (.float (.ofScientific neg c e)) ↔ (Double.ofScientific neg c e).isFinite = true :=
  Double.exists_spelled_toText_iff (Double.ofFormat_ofScientific neg c e)

theorem not_exists_error_eq_ok {ε α : Type} {e : ε} : ¬ ∃ a, (Except.error e : Except ε α) = .ok a := by
  rintro ⟨_, ⟨⟩⟩

theorem exists_readName_iff : (∃ s, readName v = .ok s) ↔ NameForm v := by
  cases v with
  | str s =>
    rw [readName, NameForm]
    split
    · rename_i hempty
      refine iff_of_false not_exists_error_eq_ok fun h ↦ ?_
      rw [String.isEmpty_iff.1 hempty] at h
      exact absurd h.1 (by decide)
    · rename_i hempty
      have hpos : 1 ≤ s.length :=
        Nat.one_le_iff_ne_zero.2 fun h ↦ hempty (String.isEmpty_iff.2 (String.length_eq_zero_iff.1 h))
      split
      · rename_i hlong
        exact iff_of_false not_exists_error_eq_ok fun h ↦ absurd h.2 (Nat.not_le.2 hlong)
      · rename_i hlong
        exact iff_of_true ⟨s, rfl⟩ ⟨hpos, Nat.not_lt.1 hlong⟩
  | _ => exact iff_of_false not_exists_error_eq_ok id

end Forms

namespace Demand

def integer : Demand := leaf IntegerForm

def entry : Demand := record [
  ⟨"id", .nullable, integer⟩,
  ⟨"category_id", .required, integer⟩,
  ⟨"min_age", .required, integer⟩,
  ⟨"max_age", .required, integer⟩,
  ⟨"provisioning_percentage", .required, leaf DecimalForm⟩,
  ⟨"liability_account", .required, integer⟩,
  ⟨"expense_account", .required, integer⟩]

def newCriteria : Demand := record [
  ⟨"criteria_name", .required, leaf NameForm⟩,
  ⟨"definitions", .required, nonEmptyList entry⟩,
  ⟨"loan_products", .optional, list integer⟩]

def changes : Demand := record [
  ⟨"criteria_name", .nullable, leaf NameForm⟩,
  ⟨"definitions", .nullable, list entry⟩,
  ⟨"loan_products", .nullable, list integer⟩]

end Demand

section Requests

variable (origin : Origin)

theorem meets_integer : Meets integer .integer := meets_leaf fun _ ↦ exists_readInteger_iff

theorem meets_decimal : Meets decimal (.leaf DecimalForm) := meets_leaf fun _ ↦ exists_readDecimal_iff

theorem meets_name : Meets Request.name (.leaf NameForm) := meets_leaf fun _ ↦ exists_readName_iff

theorem BandEntry.meets_read : Meets (BandEntry.read origin) .entry := by
  intro v
  cases v with
  | object fields =>
    refine (judged_nullable meets_integer).next fun _ ↦ ?_
    refine (judged_required meets_integer).next fun _ ↦ ?_
    refine (judged_required meets_integer).next fun _ ↦ ?_
    refine (judged_required meets_integer).next fun _ ↦ ?_
    refine (judged_required meets_decimal).next fun _ ↦ ?_
    refine (judged_required meets_integer).next fun _ ↦ ?_
    refine (judged_required meets_integer).next fun _ ↦ ?_
    exact judgedFrom_keys _ _
  | _ => exact .error not_false fun _ ↦ Iff.rfl

theorem NewCriteria.meets_read : Meets (NewCriteria.read origin) .newCriteria := by
  intro v
  cases v with
  | object fields =>
    refine (judged_required meets_name).next fun _ ↦ ?_
    refine (judged_required (BandEntry.meets_read origin).nonEmptyList).next fun _ ↦ ?_
    refine (judged_optional meets_integer.list).next fun _ ↦ ?_
    exact judgedFrom_keys _ _
  | _ => exact .error not_false fun _ ↦ Iff.rfl

theorem Changes.meets_read : Meets (Changes.read origin) .changes := by
  intro v
  cases v with
  | object fields =>
    refine (judged_nullable meets_name).next fun _ ↦ ?_
    refine (judged_nullable (BandEntry.meets_read origin).list).next fun _ ↦ ?_
    refine (judged_nullable meets_integer.list).next fun _ ↦ ?_
    exact judgedFrom_keys _ _
  | _ => exact .error not_false fun _ ↦ Iff.rfl

end Requests

/-- A value is accepted if it is admissible, and refused at its first offence otherwise. The field that is
named is the place of the refusal, with points between its parts. It is `payload` for the value as a whole,
and also where a key without characters is unknown at the top. -/
structure Answers {α : Type} (x : Except Refusal α) (D : Demand) (v : Value) : Prop extends
    Judged x (D.admits v) (D.offends v) where
  field_eq : ∀ q, x = .error q → (Problem.shape q).field =
    if q.path = [] ∨ q.path = [.key ""] then "payload" else q.path.dotted

theorem Meets.answers {α : Type} {read : Reader α} {D : Demand} (h : Meets read D) (v : Value) :
    Answers (read v) D v :=
  ⟨h v, fun q _ ↦ q.path.text_eq⟩

/-- For every value, wherever it comes from, and for both kinds of requests: what is accepted and which field
is named of what is not. A number with a point or an exponent is a percentage unless it is too large for a double. -/
theorem read_answers (origin : Origin) (v : Value) :
    Answers (NewCriteria.read origin v) .newCriteria v ∧ Answers (Changes.read origin v) .changes v ∧
      ∀ neg c e, DecimalForm (.float (.ofScientific neg c e)) ↔ (Double.ofScientific neg c e).isFinite = true :=
  ⟨(NewCriteria.meets_read origin).answers v, (Changes.meets_read origin).answers v, decimalForm_ofScientific_iff⟩

/-- An unknown key without characters is refused at its place, whose text is empty, but the root is named. -/
theorem Changes.read_of_empty_key :
    ∃ q, Changes.read .call (.object [("", .int 1)]) = .error q ∧ q.path = [.key ""] ∧ q.path.dotted = "" ∧
      (Problem.shape q).field = "payload" :=
  ⟨⟨[.key ""], .unknownKey⟩, rfl, rfl, by decide +kernel, by decide +kernel⟩

end Request
end Provisioning
