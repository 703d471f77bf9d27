import Provisioning.Proofs.Command.Steps
import Provisioning.Proofs.Store.Refusal

namespace Provisioning

def Command.action : Command → Action
  | create _ => .create
  | update .. => .update
  | delete _ => .delete

/-- The name that a command asks for as far as it is known, and how its work ends. -/
def Command.work (s : Store) (fault : Option Fault) :
    Command → Option String × (Except Failure CommandResult × Store)
  | create payload =>
    match Request.NewCriteria.read .call payload with
    | .error r => (none, .error (.problem (.shape r)), s)
    | .ok r => (some r.name, (Store.createFrom fault r).run s)
  | update id payload =>
    match Request.Changes.read .call payload with
    | .error r => (none, .error (.problem (.shape r)), s)
    | .ok r => (r.name.value?, (Store.updateFrom fault id r).run s)
  | delete id => (none, (Store.deleteUnused fault id).run s)

theorem Command.run_eq_close (c : Command) (s : Store) (fault : Option Fault) :
    c.run s fault = .close c.action s (c.work s fault).1 (c.work s fault).2 := by
  cases c with
  | create payload =>
    rw [run, Store.create, work]
    cases Request.NewCriteria.read .call payload <;> rfl
  | update id payload =>
    rw [run, Store.update, work]
    cases Request.Changes.read .call payload <;> rfl
  | delete id => rfl

inductive Command.Writes (s : Store) : Command → Snapshot → Prop
  | create {payload : Value} {r : Request.NewCriteria} {c : Criteria} :
    Request.NewCriteria.read .call payload = .ok r → (s.directory.assemble r).answer = .ok c →
    Writes s (.create payload) c.snapshot
  | update {id : Int} {payload : Value} {r : Request.Changes} {c : Criteria} {ch : ChangeSet} :
    Request.Changes.read .call payload = .ok r → s.revise id r = .ok (c, ch) →
    ch.isEmpty = false → Writes s (.update id payload) c.snapshot

section Name

variable {c c' : Criteria} {d : Directory} {r : BandRequest} {rs : List BandRequest}

theorem name_of_applyEntry {changed : Bool} (h : c.applyEntry d r = .ok (c', changed)) :
    c'.name = c.name := by
  obtain ⟨_, -, h⟩ := bind_eq_ok_iff.1 h
  obtain ⟨_, -, h⟩ := bind_eq_ok_iff.1 h
  obtain ⟨_, -, h⟩ := bind_eq_ok_iff.1 h
  have h := mapError_eq_ok_iff.1 h
  rw [Criteria.apply] at h
  split at h
  · split at h <;> cases h
    rfl
  · split at h
    · cases h
    · split at h
      · cases h
      · split at h <;> cases h <;> rfl

theorem name_of_applyAll {written : List (Option Int)} (h : c.applyAll d rs = .ok (c', written)) :
    c'.name = c.name := by
  induction rs generalizing c written with
  | nil =>
    obtain ⟨rfl, -⟩ := Prod.mk.inj (Except.ok.inj h)
    rfl
  | cons r rs ih =>
    obtain ⟨⟨c₁, changed⟩, hentry, h⟩ := bind_eq_ok_iff.1 h
    obtain ⟨⟨c₂, written₂⟩, hrest, h⟩ := bind_eq_ok_iff.1 h
    obtain ⟨rfl, -⟩ := Prod.mk.inj (Except.ok.inj h)
    rw [ih hrest, name_of_applyEntry hentry]

theorem Store.name_of_revise {s : Store} {id : Int} {r : Request.Changes} {ch : ChangeSet} {name : String}
    (h : s.revise id r = .ok (c', ch)) (hname : r.name.value? = some name) : c'.name = name := by
  obtain ⟨c, ps, c₁, head, bands, -, hps, hupdate, hbands, -⟩ := revise_eq_ok_iff.1 h
  obtain ⟨written, happly, -⟩ := withBands_eq_ok_iff.1 hbands
  obtain ⟨-, hframe, -⟩ := update_eq_ok (nodup_of_assembleProducts hps) hupdate
  rw [name_of_applyAll happly, hframe, hname]
  rfl

end Name

namespace Command

variable {s : Store} {cmd : Command} {c : Snapshot}

theorem Writes.exists_name (h : cmd.Writes s c) (fault : Option Fault) :
    ∃ name, c.name = some name ∧ ∀ asked, (cmd.work s fault).1 = some asked → asked = name := by
  cases h with
  | @create payload r c hread hassemble =>
    obtain ⟨-, ps, rfl, -⟩ := Store.assemble_eq_ok_iff.1 hassemble
    refine ⟨r.name, rfl, fun asked hasked ↦ ?_⟩
    rw [work, hread] at hasked
    exact (Option.some.inj hasked).symm
  | @update id payload r c ch hread hrevise hchanged =>
    refine ⟨c.name, rfl, fun asked hasked ↦ ?_⟩
    rw [work, hread] at hasked
    exact (Store.name_of_revise hrevise hasked).symm

end Command

section Work

variable {s : Store} {fault : Option Fault} {P : Failure → Prop}

theorem failsOnly_reach_bind {point : CallPoint} {f : Unit → Transaction CommandResult}
    (hfault : ∀ f, fault = some f → P f.failure) (hf : FailsOnly P ((f ()).run s).1) :
    FailsOnly P ((reach fault point >>= f).run s).1 := by
  cases fault with
  | none => exact hf
  | some g =>
    refine Transaction.failsOnly_ofExcept_bind ?_ fun _ _ ↦ hf
    split
    · exact .error (hfault g rfl)
    · exact .ok ()

theorem failsOnly_delete {id : Int} (hplain : ∀ e : Failure, e.kind? = none → P e)
    (hrefuse : P (Store.refuse .foreignKey)) : FailsOnly P (s.delete id) := by
  refine ((Conflictless.getRow _ _ _ _).mono hplain).bind fun h _ ↦ FailsOnly.bind ?_ fun _ _ ↦ .ok _
  rw [Store.unreferenced]
  split
  · exact .error hrefuse
  · exact .ok ()

variable (hfault : ∀ f, fault = some f → P f.failure) (hplain : ∀ e : Failure, e.kind? = none → P e)

include hfault hplain

theorem failsOnly_createFrom {r : Request.NewCriteria}
    (hwrite : ∀ c, (s.directory.assemble r).answer = .ok c → ∀ rule, s.Breaks c.snapshot rule →
      P (Store.refuse rule)) : FailsOnly P ((Store.createFrom fault r).run s).1 := by
  rw [Store.createFrom, Transaction.run_current_bind]
  refine Transaction.failsOnly_ofExcept_bind (Store.conflictless_assemble.mono hplain) fun c hc ↦ ?_
  refine failsOnly_reach_bind hfault (Transaction.failsOnly_bind ?_ fun h t _ ↦ ?_)
  · refine (Store.failsOnly_write s c.snapshot).mono fun e he ↦ ?_
    rcases he with he | ⟨rule, rfl, hrule⟩
    · exact hplain e he
    · exact hwrite c hc rule hrule
  · exact failsOnly_reach_bind hfault (.ok _)

theorem failsOnly_updateFrom {id : Int} {r : Request.Changes}
    (hwrite : ∀ c ch, s.revise id r = .ok (c, ch) → ch.isEmpty = false → ∀ rule,
      s.Breaks c.snapshot rule → P (Store.refuse rule)) :
    FailsOnly P ((Store.updateFrom fault id r).run s).1 := by
  rw [Store.updateFrom, Transaction.run_current_bind]
  refine Transaction.failsOnly_ofExcept_bind (Store.conflictless_revise.mono hplain) ?_
  rintro ⟨c, ch⟩ hc
  dsimp only
  split
  · rename_i hchanged
    refine failsOnly_reach_bind hfault (Transaction.failsOnly_bind ?_ fun h t _ ↦ ?_)
    · refine (Store.failsOnly_write s c.snapshot).mono fun e he ↦ ?_
      rcases he with he | ⟨rule, rfl, hrule⟩
      · exact hplain e he
      · exact hwrite c ch hc (by simpa using hchanged) rule hrule
    · exact failsOnly_reach_bind hfault (.ok _)
  · exact failsOnly_reach_bind hfault (.ok _)

theorem failsOnly_deleteUnused {id : Int} (hrefuse : P (Store.refuse .foreignKey)) :
    FailsOnly P ((Store.deleteUnused fault id).run s).1 := by
  rw [Store.deleteUnused, Transaction.run_current_bind]
  refine Transaction.failsOnly_ofExcept_bind ((s.conflictless_get id).mono hplain) fun _ _ ↦ ?_
  refine Transaction.failsOnly_ofExcept_bind ((s.conflictless_isUsed id).mono hplain) fun used _ ↦ ?_
  have hrest : FailsOnly P ((reach fault .delete >>= fun _ ↦ Transaction.ofExcept (s.delete id) >>= fun t ↦
      Transaction.modify (fun _ ↦ t) >>= fun _ ↦ reach fault .commit >>= fun _ ↦
        (pure ⟨id, .empty⟩ : Transaction CommandResult)).run s).1 := by
    refine failsOnly_reach_bind hfault ?_
    refine Transaction.failsOnly_ofExcept_bind (failsOnly_delete hplain hrefuse) fun t _ ↦ ?_
    rw [Transaction.run_modify_bind]
    exact failsOnly_reach_bind hfault (.ok _)
  split
  · exact Transaction.failsOnly_ofExcept_bind (.error (hplain _ rfl)) fun _ _ ↦ hrest
  · exact hrest

theorem Command.failsOnly_work {cmd : Command} (hrefuse : P (Store.refuse .foreignKey))
    (hwrite : ∀ c rule, cmd.Writes s c → s.Breaks c rule → P (Store.refuse rule)) :
    FailsOnly P (cmd.work s fault).2.1 := by
  cases cmd with
  | create payload =>
    rw [work]
    cases hread : Request.NewCriteria.read .call payload with
    | error r => exact .error (hplain _ rfl)
    | ok r =>
      dsimp only
      exact failsOnly_createFrom hfault hplain fun c hc rule ↦ hwrite _ rule (.create hread hc)
  | update id payload =>
    rw [work]
    cases hread : Request.Changes.read .call payload with
    | error r => exact .error (hplain _ rfl)
    | ok r =>
      dsimp only
      exact failsOnly_updateFrom hfault hplain fun c ch hc hchanged rule ↦
        hwrite _ rule (.update hread hc hchanged)
  | delete id => exact failsOnly_deleteUnused hfault hplain hrefuse

end Work

end Provisioning
