import Provisioning.Proofs.Assembly
import Provisioning.Revision

namespace Provisioning

def DomainError.kind? : DomainError → Option ConstraintKind
  | nameTaken _ => some .criteriaName
  | productTaken => some .productAssociation
  | integrity _ => some .other
  | _ => none

def Failure.kind? : Failure → Option ConstraintKind
  | domain e => e.kind?
  | violation v => some v.kind
  | _ => none

theorem Failure.kind?_ofError (e : DomainError) : (ofError e).kind? = e.kind? := by
  by_cases hshow : e.canShow = true
  · simp [ofError, hshow, kind?]
  · cases e <;> simp_all [ofError, kind?, DomainError.canShow, DomainError.kind?]

theorem Violation.kind?_conflict (v : Violation) (name : Option String) :
    (v.conflict name).kind? = some v.kind := by
  rw [conflict]
  cases v.kind <;> rfl

section FailsOnly

variable {ε ε' α β : Type} {P Q : ε → Prop} {x : Except ε α}

def FailsOnly (P : ε → Prop) (x : Except ε α) : Prop := ∀ e, x = .error e → P e

theorem FailsOnly.ok (a : α) : FailsOnly P (.ok a : Except ε α) := nofun

theorem FailsOnly.error {e : ε} (he : P e) : FailsOnly P (.error e : Except ε α) := by
  intro e' h
  rw [← Except.error.inj h]
  exact he

theorem FailsOnly.mono (hx : FailsOnly P x) (h : ∀ e, P e → Q e) : FailsOnly Q x :=
  fun e he ↦ h e (hx e he)

theorem FailsOnly.bind {f : α → Except ε β} (hx : FailsOnly P x)
    (hf : ∀ a, x = .ok a → FailsOnly P (f a)) : FailsOnly P (x >>= f) := by
  cases x with
  | error e => exact fun e' h ↦ hx e' (congrArg Except.error (Except.error.inj h))
  | ok a => exact hf a rfl

theorem FailsOnly.mapError {P : ε' → Prop} {f : ε → ε'} (hx : FailsOnly (fun e ↦ P (f e)) x) :
    FailsOnly P (x.mapError f) := by
  cases x with
  | error e => exact .error (hx e rfl)
  | ok a => exact .ok a

theorem FailsOnly.map (hx : FailsOnly P x) (f : α → β) : FailsOnly P (x.map f) := by
  cases x with
  | error e => exact .error (hx e rfl)
  | ok a => exact .ok (f a)

theorem FailsOnly.mapM {f : β → Except ε α} {xs : List β} (hf : ∀ b ∈ xs, FailsOnly P (f b)) :
    FailsOnly P (xs.mapM f) := by
  induction xs with
  | nil => exact .ok []
  | cons b xs ih =>
    rw [List.forall_mem_cons] at hf
    rw [List.mapM_cons]
    exact hf.1.bind fun a _ ↦ (ih hf.2).bind fun as _ ↦ .ok (a :: as)

end FailsOnly

/-- The computation never fails because of a conflict. -/
def Conflictless {α : Type} (x : Except Failure α) : Prop := FailsOnly (·.kind? = none) x

namespace Conflictless

variable {α : Type}

theorem mapError_problem (x : Except Problem α) : Conflictless (x.mapError .problem) :=
  FailsOnly.mapError fun p _ ↦ Failure.kind?_ofError (.invalid p)

theorem answer_check (x : Except Problem α) : Conflictless (Traced.check x).answer := mapError_problem x

theorem findRow (id : α → Int) (rows : List α) (n : Int) : Conflictless (findRow id rows n) := by
  rw [Provisioning.findRow]
  split
  · exact .ok _
  · exact .error rfl

theorem getRow (id : α → Int) (rows : List α) (entity : Entity) (n : Int) :
    Conflictless (getRow id rows entity n) := by
  refine (findRow id rows n).bind fun row _ ↦ ?_
  cases row with
  | none => exact .error rfl
  | some a => exact .ok a

end Conflictless

namespace Store

variable {s : Store}

theorem conflictless_category (s : Store) (id : Int) : Conflictless (s.category id) := .getRow _ _ _ _

theorem conflictless_product (s : Store) (id : Int) : Conflictless (s.product id) := .getRow _ _ _ _

theorem conflictless_account (s : Store) (id : Int) : Conflictless (s.account id) := by
  refine (Conflictless.getRow _ _ _ _).bind fun row _ ↦ ?_
  rw [AccountRow.account]
  split
  · exact .ok _
  · exact .error rfl

section Assembly

variable {r : BandRequest} {rs : List BandRequest} {bands : List Band} {ids : List Int}

theorem conflictless_validate : Conflictless (s.directory.validate r bands).answer := by
  simp only [Directory.validate, Traced.answer_bind]
  refine (Conflictless.answer_check _).bind fun _ _ ↦ (Conflictless.answer_check _).bind fun _ _ ↦ ?_
  refine (s.conflictless_category _).bind fun _ _ ↦ (s.conflictless_account _).bind fun _ _ ↦ ?_
  exact (s.conflictless_account _).bind fun _ _ ↦ Conflictless.answer_check _

theorem conflictless_validateAll : Conflictless (s.directory.validateAll bands rs).answer := by
  induction rs generalizing bands with
  | nil => exact .ok bands
  | cons r rs ih =>
    rw [Directory.validateAll, Traced.answer_bind]
    exact conflictless_validate.bind fun band _ ↦ ih

theorem conflictless_findProducts : Conflictless (s.directory.findProducts ids).answer := by
  induction ids with
  | nil => exact .ok []
  | cons id ids ih =>
    simp only [Directory.findProducts, Traced.answer_bind]
    exact (s.conflictless_product id).bind fun p _ ↦ ih.bind fun ps _ ↦ .ok (p :: ps)

theorem conflictless_assemble {r : Request.NewCriteria} :
    Conflictless (s.directory.assemble r).answer := by
  simp only [Directory.assemble, Directory.distinctProducts, Traced.answer_bind]
  exact conflictless_validateAll.bind fun _ _ ↦ conflictless_findProducts.bind fun _ _ ↦
    Conflictless.answer_check _

theorem conflictless_assembleProducts {r : Request.Changes} :
    Conflictless (s.directory.assembleProducts r).answer := by
  rw [Directory.assembleProducts]
  cases r.products.value? with
  | none => exact .ok none
  | some ids =>
    simp only [Directory.distinctProducts, Traced.answer_bind]
    exact conflictless_findProducts.bind fun ps _ ↦ .ok (some ps)

end Assembly

theorem conflictless_readBand (r : BandRow) : Conflictless (s.readBand r) := by
  rw [readBand]
  split
  · exact .error rfl
  · exact .ok _

theorem conflictless_read (s : Store) (h : Header) : Conflictless (s.read h) :=
  (FailsOnly.mapM fun r _ ↦ conflictless_readBand r).bind fun _ _ ↦ .ok _

theorem conflictless_get (s : Store) (id : Int) : Conflictless (s.get id) :=
  (Conflictless.getRow _ _ _ _).bind fun h _ ↦ s.conflictless_read h

theorem conflictless_isUsed (s : Store) (id : Int) : Conflictless (s.isUsed id) := by
  rw [isUsed]
  split
  · exact .ok _
  · exact .error rfl

section Revision

variable {c : Criteria} {r : BandRequest} {rs : List BandRequest}

theorem kind?_of_apply_eq_error {category : Category} {liability expense : Account} {check : Bool}
    {e : DomainError} (h : c.apply r category liability expense check = .error e) : e.kind? = none := by
  rw [Criteria.apply] at h
  split at h
  · split at h <;> cases h
    rfl
  · split at h
    · cases h
      rfl
    · split at h
      · cases h
        rfl
      · split at h <;> cases h

theorem conflictless_applyEntry : Conflictless (c.applyEntry s.directory r) := by
  refine (s.conflictless_category _).bind fun _ _ ↦ (s.conflictless_account _).bind fun _ _ ↦ ?_
  refine (s.conflictless_account _).bind fun _ _ ↦ FailsOnly.mapError fun e he ↦ ?_
  exact (Failure.kind?_ofError e).trans (kind?_of_apply_eq_error he)

theorem conflictless_applyAll : Conflictless (c.applyAll s.directory rs) := by
  induction rs generalizing c with
  | nil => exact .ok (c, [])
  | cons r rs ih => exact conflictless_applyEntry.bind fun _ _ ↦ ih.bind fun _ _ ↦ .ok _

theorem conflictless_withBands : Conflictless (c.withBands s.directory rs) := by
  refine conflictless_applyAll.bind fun cw _ ↦ ?_
  obtain ⟨c', written⟩ := cw
  dsimp only
  split
  · exact .ok _
  · exact (Conflictless.mapError_problem _).bind fun _ _ ↦ .ok _

theorem conflictless_revise {id : Int} {r : Request.Changes} : Conflictless (s.revise id r) := by
  refine (s.conflictless_get id).bind fun _ _ ↦ conflictless_assembleProducts.bind fun _ _ ↦ ?_
  exact (Conflictless.mapError_problem _).bind fun _ _ ↦ conflictless_withBands.bind fun _ _ ↦ .ok _

end Revision

end Store
end Provisioning
