import Provisioning.Proofs.Request.Reader

namespace Provisioning.Request

variable {α β : Type}

section FirstAt

/-- Some element is the first that is not good, and `bad` holds of its position and itself. -/
def FirstAt (good : α → Prop) (bad : ℕ → α → Prop) (xs : List α) : Prop :=
  ∃ before x after, xs = before ++ x :: after ∧ (∀ y ∈ before, good y) ∧ bad before.length x

variable {good : α → Prop} {bad : ℕ → α → Prop} {x : α} {xs : List α}

theorem not_firstAt_nil : ¬ FirstAt good bad [] := by
  rintro ⟨before, x, after, h, -⟩
  cases before <;> cases h

theorem firstAt_cons :
    FirstAt good bad (x :: xs) ↔ bad 0 x ∨ good x ∧ FirstAt good (fun n ↦ bad (n + 1)) xs := by
  constructor
  · rintro ⟨before, y, after, h, hgood, hbad⟩
    cases before with
    | nil =>
      obtain ⟨rfl, -⟩ := List.cons.inj h
      exact .inl hbad
    | cons z before =>
      obtain ⟨rfl, rfl⟩ := List.cons.inj h
      obtain ⟨hz, hbefore⟩ := List.forall_mem_cons.1 hgood
      exact .inr ⟨hz, before, y, after, rfl, hbefore, hbad⟩
  · rintro (hbad | ⟨hx, before, y, after, rfl, hgood, hbad⟩)
    · exact ⟨[], x, xs, rfl, nofun, hbad⟩
    · exact ⟨x :: before, y, after, rfl, List.forall_mem_cons.2 ⟨hx, hgood⟩, hbad⟩

end FirstAt

/-- What is asked of a value, and which place in it is the first to offend. -/
structure Demand where
  admits : Value → Prop
  offends : Value → Path → Prop

inductive Need where
  | required | optional | nullable

structure Field where
  key : String
  need : Need
  value : Demand

namespace Field

def admits (f : Field) (fields : Value.Fields) : Prop :=
  match fields.get? f.key with
  | none => f.need ≠ .required
  | some v => f.need = .nullable ∧ v = .null ∨ f.value.admits v

def offends (f : Field) (fields : Value.Fields) (p : Path) : Prop :=
  match fields.get? f.key with
  | none => f.need = .required ∧ p = [.key f.key]
  | some v => ¬ (f.need = .nullable ∧ v = .null) ∧ ∃ q, f.value.offends v q ∧ p = .key f.key :: q

end Field

def AllAdmit (declared : List Field) (fields : Value.Fields) : Prop :=
  ∀ f ∈ declared, f.admits fields

/-- The first of the declared fields that is not admissible offends at this place. -/
def FieldOffends (declared : List Field) (fields : Value.Fields) (p : Path) : Prop :=
  FirstAt (·.admits fields) (fun _ f ↦ f.offends fields p) declared

def KeysKnown (known : List String) (fields : Value.Fields) : Prop := ∀ key ∈ fields.keys, key ∈ known

/-- The first of the keys that is not known is this place. -/
def KeyOffends (known : List String) (fields : Value.Fields) (p : Path) : Prop :=
  FirstAt (· ∈ known) (fun _ key ↦ key ∉ known ∧ p = [.key key]) fields.keys

namespace Demand

def leaf (form : Value → Prop) : Demand where
  admits := form
  offends v p := ¬ form v ∧ p = []

def list (item : Demand) : Demand where
  admits
    | .list vs => ∀ v ∈ vs, item.admits v
    | _ => False
  offends
    | .list vs, p => FirstAt item.admits (fun n v ↦ ∃ q, item.offends v q ∧ p = .index n :: q) vs
    | _, p => p = []

def nonEmptyList (item : Demand) : Demand where
  admits v := (list item).admits v ∧ v ≠ .list []
  offends v p := (list item).offends v p ∨ v = .list [] ∧ p = []

/-- Fields come first, and unknown keys after them. Where a key is no text at all, the object offends as a whole. -/
def record (declared : List Field) : Demand where
  admits
    | .object fields => AllAdmit declared fields ∧ KeysKnown (declared.map Field.key) fields
    | _ => False
  offends
    | .object fields, p =>
      FieldOffends declared fields p ∨
        AllAdmit declared fields ∧ KeyOffends (declared.map Field.key) fields p
    | _, p => p = []

end Demand

section Judged

/-- The computation succeeds if `good` holds, and is refused at the places of which `first` holds. -/
structure Judged (x : Except Refusal α) (good : Prop) (first : Path → Prop) : Prop where
  ok_iff : (∃ a, x = .ok a) ↔ good
  error_iff : ∀ p, (∃ q, x = .error q ∧ q.path = p) ↔ first p

variable {x : Except Refusal α} {good good' : Prop} {first first' : Path → Prop}

namespace Judged

theorem congr (h : Judged x good first) (hgood : good ↔ good') (hfirst : ∀ p, first p ↔ first' p) :
    Judged x good' first' :=
  ⟨h.ok_iff.trans hgood, fun p ↦ (h.error_iff p).trans (hfirst p)⟩

theorem ok {a : α} (hgood : good) (hfirst : ∀ p, ¬ first p) : Judged (.ok a) good first :=
  ⟨iff_of_true ⟨a, rfl⟩ hgood, fun p ↦ iff_of_false nofun (hfirst p)⟩

theorem error {q : Refusal} (hgood : ¬ good) (hfirst : ∀ p, first p ↔ p = q.path) :
    Judged (.error q : Except Refusal α) good first := by
  refine ⟨iff_of_false nofun hgood, fun p ↦ ?_⟩
  rw [hfirst]
  constructor
  · rintro ⟨_, ⟨⟩, rfl⟩
    rfl
  · rintro rfl
    exact ⟨q, rfl, rfl⟩

theorem cases (h : Judged x good first) :
    (∃ a, x = .ok a ∧ good ∧ ∀ p, ¬ first p) ∨ ∃ q, x = .error q ∧ ¬ good ∧ ∀ p, first p ↔ p = q.path := by
  cases x with
  | ok a =>
    refine .inl ⟨a, rfl, h.ok_iff.1 ⟨a, rfl⟩, fun p hp ↦ ?_⟩
    obtain ⟨_, hq, -⟩ := (h.error_iff p).2 hp
    cases hq
  | error q =>
    refine .inr ⟨q, rfl, fun hgood ↦ ?_, fun p ↦ ?_⟩
    · obtain ⟨_, ha⟩ := h.ok_iff.2 hgood
      cases ha
    · rw [← h.error_iff p]
      constructor
      · rintro ⟨_, ⟨⟩, rfl⟩
        rfl
      · rintro rfl
        exact ⟨q, rfl, rfl⟩

theorem bind {f : α → Except Refusal β} (hx : Judged x good first)
    (hf : ∀ a, x = .ok a → Judged (f a) good' first') :
    Judged (x >>= f) (good ∧ good') fun p ↦ first p ∨ good ∧ first' p := by
  obtain ⟨a, rfl, hgood, hfirst⟩ | ⟨q, rfl, hgood, hfirst⟩ := hx.cases
  · refine (hf a rfl).congr (and_iff_right hgood).symm fun p ↦ ?_
    rw [or_iff_right (hfirst p), and_iff_right hgood]
  · refine .error (fun h ↦ hgood h.1) fun p ↦ ?_
    rw [or_iff_left fun h ↦ hgood h.1, hfirst]

theorem map (hx : Judged x good first) (f : α → β) : Judged (x.map f) good first := by
  obtain ⟨a, rfl, hgood, hfirst⟩ | ⟨q, rfl, hgood, hfirst⟩ := hx.cases
  · exact .ok hgood hfirst
  · exact .error hgood hfirst

theorem under (hx : Judged x good first) (s : Step) :
    Judged (x.mapError (Refusal.under s)) good fun p ↦ ∃ q, first q ∧ p = s :: q := by
  obtain ⟨a, rfl, hgood, hfirst⟩ | ⟨r, rfl, hgood, hfirst⟩ := hx.cases
  · exact .ok hgood fun p ⟨q, hq, _⟩ ↦ hfirst q hq
  · refine .error hgood fun p ↦ ?_
    simp only [hfirst, exists_eq_left]
    rfl

end Judged
end Judged

section Readers

/-- The reader accepts what the demand admits, and refuses the rest at the first offence. -/
def Meets (read : Reader α) (D : Demand) : Prop := ∀ v, Judged (read v) (D.admits v) (D.offends v)

variable {read : Reader α} {D : Demand} {fields : Value.Fields} {key : String}

theorem meets_leaf {read : Value → Except ShapeFault α} {form : Value → Prop}
    (h : ∀ v, (∃ a, read v = .ok a) ↔ form v) : Meets (here read) (.leaf form) := by
  intro v
  have hform := h v
  rw [here]
  cases hread : read v with
  | ok a =>
    have hv : form v := hform.1 ⟨a, hread⟩
    exact .ok hv fun p hp ↦ hp.1 hv
  | error fault =>
    have hv : ¬ form v := by
      rw [← hform, hread]
      nofun
    exact .error hv fun p ↦ and_iff_right hv

theorem judged_items (h : Meets read D) (n : ℕ) (vs : List Value) :
    Judged (items read n vs) (∀ v ∈ vs, D.admits v)
      (fun p ↦ FirstAt D.admits (fun i v ↦ ∃ q, D.offends v q ∧ p = .index (n + i) :: q) vs) := by
  induction vs generalizing n with
  | nil => exact .ok (List.forall_mem_nil _) fun p ↦ not_firstAt_nil
  | cons v vs ih =>
    have hrest (a : α) : Judged (do return a :: (← items read (n + 1) vs)) (∀ v ∈ vs, D.admits v)
        (fun p ↦ FirstAt D.admits (fun i v ↦ ∃ q, D.offends v q ∧ p = .index (n + 1 + i) :: q) vs) :=
      (ih (n + 1)).map (a :: ·)
    refine (((h v).under (.index n)).bind fun a _ ↦ hrest a).congr List.forall_mem_cons.symm fun p ↦ ?_
    rw [firstAt_cons]
    simp only [Nat.add_zero, Nat.add_assoc, Nat.add_comm 1]

theorem Meets.list (h : Meets read D) : Meets (list read) D.list := by
  intro v
  cases v with
  | list vs =>
    refine (judged_items h 0 vs).congr Iff.rfl fun p ↦ ?_
    simp only [Nat.zero_add]
    rfl
  | _ => exact .error not_false fun p ↦ Iff.rfl

theorem Meets.nonEmptyList (h : Meets read D) : Meets (nonEmptyList read) D.nonEmptyList := by
  intro v
  have hempty (as : List α) (has : Request.list read v = .ok as) :
      Judged (if as.isEmpty then .error ⟨[], .emptyList⟩ else return as) (v ≠ .list [])
        (fun p ↦ v = .list [] ∧ p = []) := by
    obtain ⟨vs, rfl, hvs⟩ := list_eq_ok_iff.1 has
    cases hvs with
    | nil => exact .error (fun h ↦ h rfl) fun p ↦ and_iff_right rfl
    | cons _ _ => exact .ok nofun nofun
  -- the list without items has no items that offend
  refine ((h.list v).bind hempty).congr Iff.rfl fun p ↦ or_congr_right ?_
  refine and_iff_right_of_imp fun hp ↦ ?_
  rw [hp.1]
  nofun

section Fields

variable {f : Field} {v : Value} {p : Path}

theorem Field.admits_of_none (h : fields.get? f.key = none) : f.admits fields ↔ f.need ≠ .required := by
  rw [admits, h]

theorem Field.offends_of_none (h : fields.get? f.key = none) :
    f.offends fields p ↔ f.need = .required ∧ p = [.key f.key] := by
  rw [offends, h]

theorem Field.admits_of_some (h : fields.get? f.key = some v) :
    f.admits fields ↔ f.need = .nullable ∧ v = .null ∨ f.value.admits v := by
  rw [admits, h]

theorem Field.offends_of_some (h : fields.get? f.key = some v) :
    f.offends fields p ↔
      ¬ (f.need = .nullable ∧ v = .null) ∧ ∃ q, f.value.offends v q ∧ p = .key f.key :: q := by
  rw [offends, h]

theorem judged_field (hread : Meets read f.value) (hget : fields.get? f.key = some v)
    (hnull : ¬ (f.need = .nullable ∧ v = .null)) :
    Judged (field read f.key v) (f.admits fields) (f.offends fields) := by
  refine ((hread v).under (.key f.key)).congr ?_ fun p ↦ ?_
  · rw [Field.admits_of_some hget, or_iff_right hnull]
  · rw [Field.offends_of_some hget, and_iff_right hnull]

theorem judged_absent {a : α} (hget : fields.get? f.key = none) (hneed : f.need ≠ .required) :
    Judged (.ok a) (f.admits fields) (f.offends fields) :=
  .ok ((Field.admits_of_none hget).2 hneed) fun _ hp ↦ hneed ((Field.offends_of_none hget).1 hp).1

end Fields

theorem judged_required (h : Meets read D) :
    let f : Field := ⟨key, .required, D⟩
    Judged (required read fields key) (f.admits fields) (f.offends fields) := by
  intro f
  rw [required]
  cases hget : fields.get? key with
  | none =>
    refine .error (fun hf ↦ (Field.admits_of_none hget).1 hf rfl) fun p ↦ ?_
    exact (Field.offends_of_none hget).trans (and_iff_right rfl)
  | some v => exact judged_field (f := f) h hget fun h ↦ by cases h.1

theorem judged_optional (h : Meets read D) :
    let f : Field := ⟨key, .optional, D⟩
    Judged (optional read fields key) (f.admits fields) (f.offends fields) := by
  intro f
  rw [optional]
  cases hget : fields.get? key with
  | none => exact judged_absent (f := f) hget fun h ↦ by cases h
  | some v => exact (judged_field (f := f) h hget fun h ↦ by cases h.1).map some

theorem judged_nullable (h : Meets read D) :
    let f : Field := ⟨key, .nullable, D⟩
    Judged (nullable read fields key) (f.admits fields) (f.offends fields) := by
  intro f
  rw [nullable]
  cases hget : fields.get? key with
  | none => exact judged_absent (f := f) hget fun h ↦ by cases h
  | some v =>
    cases v with
    | null =>
      refine .ok ((Field.admits_of_some hget).2 (.inl ⟨rfl, rfl⟩)) fun p hp ↦ ?_
      exact ((Field.offends_of_some hget).1 hp).1 ⟨rfl, rfl⟩
    | _ => exact (judged_field (f := f) h hget (fun h ↦ by cases h.2)).map Presence.given

theorem judged_checkKeys (known : List String) (fields : Value.Fields) :
    Judged (checkKeys known fields) (KeysKnown known fields) (KeyOffends known fields) := by
  rw [checkKeys]
  unfold KeysKnown KeyOffends
  induction fields.keys with
  | nil => exact .ok (List.forall_mem_nil _) fun p ↦ not_firstAt_nil
  | cons key keys ih =>
    by_cases hkey : key ∈ known
    · rw [List.find?_cons_of_neg (by simpa using hkey)]
      refine ih.congr (List.forall_mem_cons.trans (and_iff_right hkey)).symm fun p ↦ ?_
      rw [firstAt_cons, or_iff_right fun h ↦ h.1 hkey, and_iff_right hkey]
    · rw [List.find?_cons_of_pos (by simpa using hkey)]
      refine .error (fun h ↦ hkey (h key List.mem_cons_self)) fun p ↦ ?_
      rw [firstAt_cons, or_iff_left fun h ↦ hkey h.1, and_iff_right hkey]

section Records

variable {f : Field} {fs : List Field} {known : List String} {x : Except Refusal α}
  {k : α → Except Refusal β}

def JudgedFrom (fs : List Field) (known : List String) (fields : Value.Fields) (x : Except Refusal α) :
    Prop :=
  Judged x (AllAdmit fs fields ∧ KeysKnown known fields)
    fun p ↦ FieldOffends fs fields p ∨ AllAdmit fs fields ∧ KeyOffends known fields p

theorem Judged.next (hx : Judged x (f.admits fields) (f.offends fields))
    (hk : ∀ a, JudgedFrom fs known fields (k a)) : JudgedFrom (f :: fs) known fields (x >>= k) := by
  refine (hx.bind fun a _ ↦ hk a).congr ?_ fun p ↦ ?_
  · simp only [AllAdmit, List.forall_mem_cons, and_assoc]
  · simp only [FieldOffends, firstAt_cons, AllAdmit, List.forall_mem_cons]
    rw [or_assoc, and_or_left, and_assoc]

theorem judgedFrom_keys (known : List String) (a : α) :
    JudgedFrom [] known fields (checkKeys known fields >>= fun _ ↦ .ok a) := by
  refine ((judged_checkKeys known fields).bind fun _ _ ↦ .ok trivial fun p ↦ not_false).congr ?_ fun p ↦ ?_
  · simp [AllAdmit]
  · simp [AllAdmit, FieldOffends, not_firstAt_nil]

end Records
end Readers
end Provisioning.Request
