import Provisioning.Proofs.Command.Run
import Provisioning.Proofs.Command.Work
import Provisioning.Proofs.Schema

namespace Provisioning

namespace Report

variable {a : Action} {s : Store} {name : Option String} {x : Except Failure CommandResult × Store}
  {e : DomainError}

theorem close_answer_eq_domain_iff :
    (close a s name x).answer = .error (.domain e) ↔
      x.1 = .error (.domain e) ∨ ∃ v, x.1 = .error (.violation v) ∧ e = v.conflict name := by
  rcases x with ⟨f | r, t⟩
  · cases f with
    | violation v => simp [close, eq_comm (a := e)]
    | _ => simp [close]
  · simp [close]

end Report

namespace Store

variable {s : Store} {c : Snapshot} {rule : TableRule}

theorem Breaks.inSchema (h : s.Breaks c rule) : rule.InSchema := by
  cases h <;> decide

theorem Breaks.held_of_criteriaName (h : s.Breaks c rule)
    (hkind : (Violation.ofRule rule).kind = .criteriaName) : s.NameHeld c ∨ c.name = none := by
  have hcolumn := (Violation.kind_ofRule_eq_criteriaName_iff h.inSchema).1 hkind
  cases h with
  | unnamed hname => exact .inr hname
  | nameHeld hheld => exact .inl hheld
  | _ => exact absurd hcolumn (by decide)

theorem Breaks.held_of_productAssociation (h : s.Breaks c rule)
    (hkind : (Violation.ofRule rule).kind = .productAssociation) : s.ProductHeld c := by
  have hcolumn := ((Violation.kind_ofRule_eq_productAssociation_iff h.inSchema).1 hkind).2
  cases h with
  | productHeld hheld => exact hheld
  | _ => exact absurd hcolumn (by decide)

theorem kind?_refuse_foreignKey : (refuse .foreignKey).kind? = some .other :=
  congrArg some (Violation.kind_ofRule (by decide))

/-- A refusal that the caller hears of is about the snapshot that the command writes. -/
theorem exists_writes_of_answer {cmd : Command} {e : DomainError} {k : ConstraintKind}
    (h : (cmd.run s none).answer = .error (.domain e)) (hk : e.kind? = some k) (hother : k ≠ .other) :
    ∃ c rule, cmd.Writes s c ∧ s.Breaks c rule ∧ (Violation.ofRule rule).kind = k ∧
      e = (Violation.ofRule rule).conflict (cmd.work s none).1 := by
  have hwork : FailsOnly (fun f ↦ f.kind? = none ∨ f = refuse .foreignKey ∨
      ∃ c rule, cmd.Writes s c ∧ s.Breaks c rule ∧ f = refuse rule) (cmd.work s none).2.1 :=
    Command.failsOnly_work nofun (fun f hf ↦ .inl hf) (.inr (.inl rfl))
      fun c rule hwrites hbreaks ↦ .inr (.inr ⟨c, rule, hwrites, hbreaks, rfl⟩)
  rw [Command.run_eq_close, Report.close_answer_eq_domain_iff] at h
  rcases h with h | ⟨v, h, rfl⟩
  · rcases hwork _ h with hplain | hrefuse | ⟨c, rule, -, -, hrefuse⟩
    · rw [Failure.kind?, hk] at hplain
      cases hplain
    · cases hrefuse
    · cases hrefuse
  · rw [Violation.kind?_conflict] at hk
    obtain rfl := Option.some.inj hk
    rcases hwork _ h with hplain | hrefuse | ⟨c, rule, hwrites, hbreaks, hrefuse⟩
    · cases hplain
    · have hv : (Failure.violation v).kind? = some .other := hrefuse ▸ kind?_refuse_foreignKey
      exact absurd (Option.some.inj hv) hother
    · obtain rfl := Failure.violation.inj hrefuse
      exact ⟨c, rule, hwrites, hbreaks, rfl, rfl⟩

/-- The text of a broken rule tells a taken name from a taken product for every rule of the tables,
though not from other rules on these columns. Of those only a missing name can be broken, so that what is
said to be taken is taken where the snapshot has a name, as it has in every command. -/
theorem refusal_spec (s : Store) :
    (∀ rule : TableRule, rule.InSchema →
      ((Violation.ofRule rule).kind = .criteriaName ↔ .ofCriteria "criteria_name" ∈ rule.columns) ∧
      ((Violation.ofRule rule).kind = .productAssociation ↔
        .ofCriteria "criteria_name" ∉ rule.columns ∧ .ofLink "product_id" ∈ rule.columns) ∧
      ((Violation.ofRule rule).kind = rule.kind ↔ (∃ columns, rule = .unique columns) ∨
        ∀ k : ConstraintKind, ∀ c ∈ k.columns, c ∉ rule.columns)) ∧
    (∀ c e, s.save c = .error e → e.kind? = none ∨
      (∃ rule, e = refuse rule ∧ rule.InSchema ∧ s.Breaks c rule) ∧
      (e.kind? = some .criteriaName → s.NameHeld c ∨ c.name = none) ∧
      (e.kind? = some .productAssociation → s.ProductHeld c)) ∧
    ∀ cmd : Command,
      (∀ asked, (cmd.run s none).answer = .error (.domain (.nameTaken asked)) →
        ∃ c, cmd.Writes s c ∧ s.NameHeld c ∧ (asked = none ∨ asked = c.name)) ∧
      ((cmd.run s none).answer = .error (.domain .productTaken) →
        ∃ c, cmd.Writes s c ∧ s.ProductHeld c) := by
  refine ⟨fun rule hrule ↦ ?_, fun c e he ↦ ?_, fun cmd ↦ ⟨fun asked h ↦ ?_, fun h ↦ ?_⟩⟩
  · exact ⟨Violation.kind_ofRule_eq_criteriaName_iff hrule,
      Violation.kind_ofRule_eq_productAssociation_iff hrule, Violation.kind_ofRule_eq_kind_iff hrule⟩
  · rcases failsOnly_save s c e he with hplain | ⟨rule, rfl, hbreaks⟩
    · exact .inl hplain
    · exact .inr ⟨⟨rule, rfl, hbreaks.inSchema, hbreaks⟩,
        fun hkind ↦ hbreaks.held_of_criteriaName (Option.some.inj hkind),
        fun hkind ↦ hbreaks.held_of_productAssociation (Option.some.inj hkind)⟩
  · obtain ⟨c, rule, hwrites, hbreaks, hkind, hasked⟩ :=
      exists_writes_of_answer (k := .criteriaName) h rfl (by decide)
    obtain ⟨name, hname, hsame⟩ := hwrites.exists_name none
    rw [Violation.conflict, hkind, DomainError.nameTaken.injEq] at hasked
    have hheld := (hbreaks.held_of_criteriaName hkind).resolve_right (by simp [hname])
    refine ⟨c, hwrites, hheld, ?_⟩
    cases asked with
    | none => exact .inl rfl
    | some asked => exact .inr (by rw [hname, hsame asked hasked.symm])
  · obtain ⟨c, rule, hwrites, hbreaks, hkind, -⟩ :=
      exists_writes_of_answer (k := .productAssociation) h rfl (by decide)
    exact ⟨c, hwrites, hbreaks.held_of_productAssociation hkind⟩

theorem refusal_spec_of_second :
    let s := ((Service.start Sample.store).runAll [⟨.create Sample.monthly.dump, none⟩]).2.store
    let c : Snapshot := ⟨none, some "Monthly", [], []⟩
    let rule : TableRule := .unique [.ofCriteria "criteria_name"]
    rule.InSchema ∧ (Violation.ofRule rule).kind = .criteriaName ∧ s.save c = .error (refuse rule) ∧
      s.NameHeld c ∧
      ((Command.create Sample.monthly.dump).run s none).answer =
        .error (.domain (.nameTaken (some "Monthly"))) ∧
      ∃ d, (Command.create Sample.monthly.dump).Writes s d ∧ s.NameHeld d := by
  intro s c rule
  obtain ⟨hrules, hsave, hcommand⟩ := refusal_spec s
  have hrule : rule.InSchema := (Breaks.nameHeld (s := s) (c := c) ⟨⟨1, "Monthly"⟩, by decide⟩).inSchema
  have hkind : (Violation.ofRule rule).kind = .criteriaName :=
    (hrules rule hrule).1.2 (List.mem_singleton_self _)
  have hrefused : s.save c = .error (refuse rule) := rfl
  have hheld : s.NameHeld c := by
    rcases hsave c _ hrefused with hplain | ⟨-, hname, -⟩
    · cases hplain
    · exact (hname (congrArg some hkind)).resolve_right nofun
  have hwork : ((Command.create Sample.monthly.dump).work s none) =
      (some "Monthly", .error (refuse rule), s) := rfl
  have hanswer : ((Command.create Sample.monthly.dump).run s none).answer =
      .error (.domain (.nameTaken (some "Monthly"))) := by
    rw [Command.run_eq_close, hwork, Report.close_answer_eq_domain_iff]
    exact .inr ⟨Violation.ofRule rule, rfl, by rw [Violation.conflict, hkind]⟩
  obtain ⟨d, hwrites, hd, -⟩ := (hcommand (.create Sample.monthly.dump)).1 _ hanswer
  exact ⟨hrule, hkind, hrefused, hheld, hanswer, d, hwrites, hd⟩

theorem refusal_of_nameless :
    let c : Snapshot := ⟨none, none, [], []⟩
    let rule : TableRule := .notNull (.ofCriteria "criteria_name")
    Sample.store.save c = .error (refuse rule) ∧ (Violation.ofRule rule).kind = .criteriaName ∧
      rule.kind = .other ∧ ¬ Sample.store.NameHeld c ∧
      (Violation.ofRule rule).conflict c.name = .nameTaken none := by
  intro c rule
  have hkind : (Violation.ofRule rule).kind = .criteriaName :=
    (Violation.kind_ofRule_eq_criteriaName_iff (Breaks.unnamed (s := Sample.store) (c := c) rfl).inSchema).2
      (List.mem_singleton_self _)
  refine ⟨rfl, hkind, rfl, ?_, by rw [Violation.conflict, hkind]⟩
  rintro ⟨h, hh, -⟩
  exact absurd hh List.not_mem_nil

end Store
end Provisioning
