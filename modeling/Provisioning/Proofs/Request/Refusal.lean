import Provisioning.Proofs.Failure
import Provisioning.Request.Basic

namespace Provisioning

/-- The refusal of a body in which the same value is refused as in a call. -/
structure Refusal.Matches (r q : Refusal) : Prop where
  path : q.path = r.path
  fault : q.fault = r.fault ∨ ∃ form, r.fault = .notForm form ∧ q.fault = .notObject

def Refusal.OfBodyKey (r : Refusal) : Prop :=
  r.fault = .unknownKey ∧ r.path.getLast? = some (.key "body")

instance (r : Refusal) : Decidable r.OfBodyKey := inferInstanceAs (Decidable (_ ∧ _))

/-- No part of the place is called `body`, but for an unknown key at its end. -/
def Refusal.Placed (r : Refusal) : Prop :=
  ∃ p : Path, (∀ s ∈ p, s.text ≠ "body") ∧
    (r.path = p ∨ r.fault = .unknownKey ∧ r.path = p ++ [.key "body"])

theorem Refusal.Placed.under {r : Refusal} (h : r.Placed) {s : Step} (hs : s.text ≠ "body") :
    (r.under s).Placed := by
  obtain ⟨p, hp, hpath⟩ := h
  refine ⟨s :: p, List.forall_mem_cons.2 ⟨hs, hp⟩, ?_⟩
  rcases hpath with hpath | ⟨hfault, hpath⟩
  · exact .inl (by rw [Refusal.under, hpath])
  · exact .inr ⟨hfault, by rw [Refusal.under, hpath, List.cons_append]⟩

theorem Refusal.placed_here (fault : ShapeFault) : (⟨[], fault⟩ : Refusal).Placed :=
  ⟨[], fun _ hs ↦ absurd hs List.not_mem_nil, .inl rfl⟩

theorem Step.text_index_ne (n : ℕ) : (Step.index n).text ≠ "body" := by
  intro h
  have hdigits : Nat.toDigits 10 n = ['b', 'o', 'd', 'y'] := by
    simpa [Step.text] using congrArg String.toList h
  have hb : 'b' ∈ Nat.toDigits 10 n := by simp [hdigits]
  exact absurd (Nat.isDigit_of_mem_toDigits (by decide) (by decide) hb) (by decide)

namespace Request

variable {α β : Type}

section Matched

inductive Matched : Except Refusal α → Except Refusal α → Prop
  | ok (a : α) : Matched (.ok a) (.ok a)
  | error {r q : Refusal} : r.Matches q → Matched (.error r) (.error q)

variable {x y : Except Refusal α} {read read' : Reader α} {fields : Value.Fields} {key : String}

theorem Matched.refl (x : Except Refusal α) : Matched x x := by
  cases x with
  | ok a => exact .ok a
  | error r => exact .error ⟨rfl, .inl rfl⟩

theorem Matched.bind {f g : α → Except Refusal β} (hx : Matched x y) (hf : ∀ a, Matched (f a) (g a)) :
    Matched (x >>= f) (y >>= g) := by
  cases hx with
  | ok a => exact hf a
  | error h => exact .error h

theorem Matched.under (hx : Matched x y) (s : Step) :
    Matched (x.mapError (Refusal.under s)) (y.mapError (Refusal.under s)) := by
  cases hx with
  | ok a => exact .ok a
  | error h => exact .error ⟨congrArg (s :: ·) h.path, h.fault⟩

theorem Matched.map (hx : Matched x y) (f : α → β) : Matched (x.map f) (y.map f) := by
  cases hx with
  | ok a => exact .ok (f a)
  | error h => exact .error h

theorem Matched.exists_error (hx : Matched x y) {r : Refusal} (h : x = .error r) :
    ∃ q, y = .error q ∧ r.Matches q := by
  cases hx with
  | ok a => cases h
  | error hq =>
    obtain rfl := Except.error.inj h
    exact ⟨_, rfl, hq⟩

variable (hread : ∀ v, Matched (read v) (read' v))

include hread

theorem matched_items (n : ℕ) (vs : List Value) : Matched (items read n vs) (items read' n vs) := by
  induction vs generalizing n with
  | nil => exact .ok []
  | cons v vs ih =>
    exact ((hread v).under _).bind fun a ↦ (ih (n + 1)).bind fun as ↦ .ok (a :: as)

theorem matched_list (v : Value) : Matched (list read v) (list read' v) := by
  cases v with
  | list vs => exact matched_items hread 0 vs
  | _ => exact .refl _

theorem matched_nonEmptyList (v : Value) : Matched (nonEmptyList read v) (nonEmptyList read' v) :=
  (matched_list hread v).bind fun _ ↦ .refl _

theorem matched_required : Matched (required read fields key) (required read' fields key) := by
  rw [required, required]
  cases fields.get? key with
  | none => exact .refl _
  | some v => exact (hread v).under _

theorem matched_nullable : Matched (nullable read fields key) (nullable read' fields key) := by
  rw [nullable, nullable]
  cases fields.get? key with
  | none => exact .refl _
  | some v =>
    cases v with
    | null => exact .refl _
    | _ => exact ((hread _).under _).map _

end Matched

theorem BandEntry.matched_read (v : Value) :
    Matched (BandEntry.read .call v) (BandEntry.read .body v) := by
  cases v with
  | object _ | brokenObject _ => exact .refl _
  | _ => exact .error ⟨rfl, .inr ⟨.band, rfl, rfl⟩⟩

/-- A request is refused at the same place, wherever it comes from. -/
theorem NewCriteria.matched_read (v : Value) :
    Matched (NewCriteria.read .call v) (NewCriteria.read .body v) := by
  cases v with
  | object fields =>
    refine (Matched.refl _).bind fun name ↦ ?_
    exact (matched_required (matched_nonEmptyList BandEntry.matched_read)).bind fun bands ↦ .refl _
  | brokenObject _ => exact .refl _
  | _ => exact .error ⟨rfl, .inr ⟨.newCriteria, rfl, rfl⟩⟩

theorem Changes.matched_read (v : Value) :
    Matched (Changes.read .call v) (Changes.read .body v) := by
  cases v with
  | object fields =>
    refine (Matched.refl _).bind fun name ↦ ?_
    exact (matched_nullable (matched_list BandEntry.matched_read)).bind fun bands ↦ .refl _
  | brokenObject _ => exact .refl _
  | _ => exact .error ⟨rfl, .inr ⟨.changes, rfl, rfl⟩⟩

section Placed

def Places (read : Reader α) : Prop := ∀ v, FailsOnly Refusal.Placed (read v)

variable {read : Reader α} {fields : Value.Fields} {key : String}

theorem places_here (read : Value → Except ShapeFault α) : Places (here read) :=
  fun _ ↦ FailsOnly.mapError fun fault _ ↦ Refusal.placed_here fault

theorem Places.field (h : Places read) (hkey : key ≠ "body") (v : Value) :
    FailsOnly Refusal.Placed (field read key v) :=
  FailsOnly.mapError ((h v).mono fun _ hr ↦ hr.under hkey)

theorem Places.required (h : Places read) (hkey : key ≠ "body") :
    FailsOnly Refusal.Placed (required read fields key) := by
  rw [Request.required]
  cases fields.get? key with
  | none => exact .error ((Refusal.placed_here _).under hkey)
  | some v => exact h.field hkey v

theorem Places.optional (h : Places read) (hkey : key ≠ "body") :
    FailsOnly Refusal.Placed (optional read fields key) := by
  rw [Request.optional]
  cases fields.get? key with
  | none => exact .ok none
  | some v => exact (h.field hkey v).map some

theorem Places.nullable (h : Places read) (hkey : key ≠ "body") :
    FailsOnly Refusal.Placed (nullable read fields key) := by
  rw [Request.nullable]
  cases fields.get? key with
  | none => exact .ok Presence.absent
  | some v =>
    cases v with
    | null => exact .ok Presence.null
    | _ => exact (h.field hkey _).map Presence.given

theorem Places.list (h : Places read) : Places (list read) := by
  have hitems (n : ℕ) (vs : List Value) : FailsOnly Refusal.Placed (items read n vs) := by
    induction vs generalizing n with
    | nil => exact .ok []
    | cons v vs ih =>
      refine (FailsOnly.mapError ((h v).mono fun _ hr ↦ hr.under (Step.text_index_ne n))).bind ?_
      exact fun a _ ↦ (ih (n + 1)).bind fun as _ ↦ .ok (a :: as)
  intro v
  cases v with
  | list vs => exact hitems 0 vs
  | _ => exact .error (Refusal.placed_here _)

theorem Places.nonEmptyList (h : Places read) : Places (nonEmptyList read) := by
  intro v
  refine (h.list v).bind fun as _ ↦ ?_
  split
  · exact .error (Refusal.placed_here _)
  · exact .ok as

theorem placed_checkKeys (known : List String) : FailsOnly Refusal.Placed (checkKeys known fields) := by
  rw [checkKeys]
  split
  · rename_i key _
    by_cases hkey : key = "body"
    · exact .error ⟨[], fun _ hs ↦ absurd hs List.not_mem_nil, .inr ⟨rfl, by rw [hkey, List.nil_append]⟩⟩
    · exact .error ⟨[.key key], fun s hs ↦ by rw [List.mem_singleton.1 hs]; exact hkey, .inl rfl⟩
  · exact .ok ()

theorem BandEntry.places_read (origin : Origin) : Places (BandEntry.read origin) := by
  intro v
  cases v with
  | object fields =>
    refine ((places_here _).nullable (by decide)).bind fun _ _ ↦ ?_
    refine ((places_here _).required (by decide)).bind fun _ _ ↦ ?_
    refine ((places_here _).required (by decide)).bind fun _ _ ↦ ?_
    refine ((places_here _).required (by decide)).bind fun _ _ ↦ ?_
    refine ((places_here _).required (by decide)).bind fun _ _ ↦ ?_
    refine ((places_here _).required (by decide)).bind fun _ _ ↦ ?_
    refine ((places_here _).required (by decide)).bind fun _ _ ↦ ?_
    exact (placed_checkKeys _).bind fun _ _ ↦ .ok _
  | _ => exact .error (Refusal.placed_here _)

theorem NewCriteria.places_read (origin : Origin) : Places (NewCriteria.read origin) := by
  intro v
  cases v with
  | object fields =>
    refine ((places_here _).required (by decide)).bind fun _ _ ↦ ?_
    refine ((BandEntry.places_read origin).nonEmptyList.required (by decide)).bind fun _ _ ↦ ?_
    refine ((places_here _).list.optional (by decide)).bind fun _ _ ↦ ?_
    exact (placed_checkKeys _).bind fun _ _ ↦ .ok _
  | _ => exact .error (Refusal.placed_here _)

theorem Changes.places_read (origin : Origin) : Places (Changes.read origin) := by
  intro v
  cases v with
  | object fields =>
    refine ((places_here _).nullable (by decide)).bind fun _ _ ↦ ?_
    refine ((BandEntry.places_read origin).list.nullable (by decide)).bind fun _ _ ↦ ?_
    refine ((places_here _).list.nullable (by decide)).bind fun _ _ ↦ ?_
    exact (placed_checkKeys _).bind fun _ _ ↦ .ok _
  | _ => exact .error (Refusal.placed_here _)

end Placed

end Request
end Provisioning
