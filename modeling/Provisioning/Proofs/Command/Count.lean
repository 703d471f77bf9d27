import Provisioning.Proofs.Command.Run
import Provisioning.Proofs.Command.Work
import Mathlib.Data.List.Sort

namespace Provisioning

namespace Metrics

variable {m n : Metrics}

theorem commandCount_append (a : Action) (o : Outcome) :
    (m.append n).commandCount a o = m.commandCount a o + n.commandCount a o := List.count_append

theorem conflictCount_append (k : ConstraintKind) :
    (m.append n).conflictCount k = m.conflictCount k + n.conflictCount k := List.count_append

theorem sum_commandCount (m : Metrics) (o : Outcome) :
    (actions.map fun a ↦ m.commandCount a o).sum = m.commands.countP (·.2 = o) := by
  obtain ⟨commands, conflicts⟩ := m
  simp only [actions, commandCount, List.map_cons, List.map_nil, List.sum_cons, List.sum_nil]
  induction commands with
  | nil => rfl
  | cons p commands ih =>
    obtain ⟨a, o'⟩ := p
    simp only [List.count_cons, List.countP_cons, beq_iff_eq, Prod.mk.injEq, decide_eq_true_eq]
    cases a <;> simp <;> omega

theorem sum_conflictCount (m : Metrics) : (kinds.map m.conflictCount).sum = m.conflicts.length := by
  obtain ⟨commands, conflicts⟩ := m
  simp only [kinds, conflictCount, List.map_cons, List.map_nil, List.sum_cons, List.sum_nil]
  induction conflicts with
  | nil => rfl
  | cons k conflicts ih =>
    simp only [List.count_cons, List.length_cons]
    cases k <;> simp <;> omega

end Metrics

theorem ChangeSet.perm_fields (c : ChangeSet) : c.fields.Perm c.changes.keys := List.mergeSort_perm _ _

theorem ChangeSet.pairwise_fields (c : ChangeSet) : c.fields.Pairwise (· ≤ ·) := by
  have htrans (a b d : String) (hab : decide (a ≤ b) = true) (hbd : decide (b ≤ d) = true) :
      decide (a ≤ d) = true :=
    decide_eq_true (String.le_trans (of_decide_eq_true hab) (of_decide_eq_true hbd))
  have htotal (a b : String) : (decide (a ≤ b) || decide (b ≤ a)) = true := by
    simpa using String.le_total a b
  have hsorted : c.fields.Pairwise fun a b ↦ decide (a ≤ b) = true :=
    List.pairwise_mergeSort htrans htotal c.changes.keys
  exact hsorted.imp of_decide_eq_true

namespace Report

def conflict? (r : Report) : Option ConstraintKind :=
  match r.answer with
  | .error (.domain e) => e.kind?
  | _ => none

def outcome (r : Report) : Outcome :=
  match r.answer with
  | .ok _ => .success
  | .error (.domain e) => if e.kind?.isSome then .conflict else .rejected
  | .error _ => .failed

/-- What is said of the command in the log: of a success what it changed, of a rejection why, and of a
conflict only that it has no explanation. -/
def Logs (r : Report) (lines : List Log.Line) : Prop :=
  match r.answer with
  | .ok result => ∃ l fields, lines = [l] ∧ l.level = Log.info ∧
    l.message = "Provisioning criteria command completed" ∧
    l.extra.get? "criteria_id" = some (.int result.resourceId) ∧
    l.extra.get? "changed_fields" = some (.ofStrings fields) ∧
    fields.Perm result.changes.changes.keys ∧ fields.Pairwise (· ≤ ·)
  | .error (.domain e) =>
    match e.kind? with
    | none => ∃ l, lines = [l] ∧ l.level = Log.warning ∧ l.extra.get? "error_code" = some (.str e.code)
    | some .other => ∃ l, lines = [l] ∧ l.level = Log.error
    | some _ => lines = []
  | .error _ => lines = []

/-- The report is counted once and logged once. -/
structure Accounted (a : Action) (r : Report) : Prop where
  metrics : r.metrics = ⟨[(a, r.outcome)], r.conflict?.toList⟩
  log : ∀ threshold ≤ Log.info, r.Logs (r.log.filter fun l ↦ Log.isEmitted threshold l.level)

theorem outcome_eq_conflict_iff {r : Report} : r.outcome = .conflict ↔ r.conflict?.isSome = true := by
  rw [outcome, conflict?]
  cases r.answer with
  | ok result => simp
  | error e =>
    cases e with
    | domain e => cases h : e.kind? <;> simp [h]
    | _ => simp

theorem filter_isEmitted_singleton {threshold : Int} {l : Log.Line} (h : threshold ≤ Log.info)
    (hl : Log.info ≤ l.level) :
    List.filter (fun l : Log.Line ↦ Log.isEmitted threshold l.level) [l] = [l] := by
  have hemitted : Log.isEmitted threshold l.level = true := by
    simp only [Log.isEmitted, Log.info, Bool.and_eq_true, decide_eq_true_eq] at h hl ⊢
    omega
  simp only [List.filter_cons, hemitted, ↓reduceIte, List.filter_nil]

/-- Only a refusal of the store counts as a conflict, and every conflict is one. -/
theorem accounted_close {a : Action} {s : Store} {name : Option String}
    {x : Except Failure CommandResult × Store}
    (hx : FailsOnly (fun f ↦ ∀ e, f = .domain e → e.kind? = none) x.1) :
    (close a s name x).Accounted a := by
  rcases x with ⟨f | result, t⟩
  · cases f with
    | violation v =>
      have hkind := v.kind?_conflict name
      constructor
      · simp [close, outcome, conflict?, hkind]
      · intro threshold hthreshold
        simp only [close, Logs, hkind, Violation.log]
        cases v.kind with
        | other =>
          have hlevel : Log.info ≤ Log.error := by decide
          exact ⟨_, filter_isEmitted_singleton hthreshold hlevel, rfl⟩
        | _ => rfl
    | domain e =>
      have hkind : e.kind? = none := hx _ rfl e rfl
      constructor
      · simp [close, outcome, conflict?, hkind]
      · intro threshold hthreshold
        simp only [close, Logs, hkind]
        have hlevel : Log.info ≤ Log.warning := by decide
        exact ⟨a.rejection e, filter_isEmitted_singleton hthreshold hlevel, rfl, rfl⟩
    | _ => exact ⟨rfl, fun _ _ ↦ rfl⟩
  · refine ⟨rfl, fun threshold hthreshold ↦ ?_⟩
    exact ⟨Log.completed a.name (.int result.resourceId) result.changes .null, result.changes.fields,
      filter_isEmitted_singleton hthreshold (Int.le_refl _), rfl, rfl, rfl, rfl, result.changes.perm_fields,
      result.changes.pairwise_fields⟩

end Report

/-- Where the store stops the command, it is not with a conflict in the words of the service. -/
def Call.Untranslated (c : Call) : Prop :=
  ∀ f, c.fault = some f → ∀ e, f.failure = .domain e → e.kind? = none

namespace Service

variable {v : Service} {c : Call} {calls : List Call}

theorem accounted_call (hc : c.Untranslated) : (v.call c).1.Accounted c.command.action := by
  change (c.command.run v.store c.fault).Accounted c.command.action
  rw [Command.run_eq_close]
  have hwork : FailsOnly (fun f ↦ ∀ e, f = .domain e → e.kind? = none)
      (c.command.work v.store c.fault).2.1 := by
    apply Command.failsOnly_work
    · exact hc
    · intro f hf e he
      rw [he] at hf
      exact hf
    · intro e he
      cases he
    · intro _ _ _ _ e he
      cases he
  exact Report.accounted_close hwork

theorem metrics_call (hc : c.Untranslated) :
    (v.call c).2.metrics =
      v.metrics.append ⟨[(c.command.action, (v.call c).1.outcome)], (v.call c).1.conflict?.toList⟩ := by
  rw [← (accounted_call hc).metrics]
  rfl

theorem metrics_runAll (hcalls : ∀ c ∈ calls, c.Untranslated) :
    (v.runAll calls).2.metrics =
      v.metrics.append ⟨(calls.zip (v.runAll calls).1).map fun p ↦ (p.1.command.action, p.2.outcome),
        (v.runAll calls).1.filterMap Report.conflict?⟩ := by
  induction calls generalizing v with
  | nil => simp [runAll, Metrics.append]
  | cons c cs ih =>
    rw [List.forall_mem_cons] at hcalls
    simp only [runAll, ih hcalls.2, metrics_call hcalls.1, Metrics.append, List.append_assoc,
      List.zip_cons_cons, List.map_cons, List.filterMap_cons, List.singleton_append]
    cases (v.call c).1.conflict? <;> rfl

theorem length_runAll (v : Service) (calls : List Call) : (v.runAll calls).1.length = calls.length := by
  induction calls generalizing v with
  | nil => rfl
  | cons c cs ih => rw [runAll, List.length_cons, List.length_cons, ih]

theorem getElem?_runAll (v : Service) (before after : List Call) (c : Call) :
    (v.runAll (before ++ c :: after)).1[before.length]? = some ((v.runAll before).2.call c).1 := by
  rw [runAll_append, List.getElem?_append_right (length_runAll v before).le, length_runAll, Nat.sub_self]
  rfl

theorem accounted_of_mem_runAll (hcalls : ∀ c ∈ calls, c.Untranslated) {r : Report}
    (hr : r ∈ (v.runAll calls).1) : ∃ c ∈ calls, r.Accounted c.command.action := by
  induction calls generalizing v with
  | nil => exact absurd hr List.not_mem_nil
  | cons c cs ih =>
    rw [List.forall_mem_cons] at hcalls
    rcases List.mem_cons.1 hr with rfl | hr
    · exact ⟨c, List.mem_cons_self, accounted_call hcalls.1⟩
    · obtain ⟨d, hd, hr⟩ := ih hcalls.2 hr
      exact ⟨d, List.mem_cons_of_mem c hd, hr⟩

theorem countP_conflict_runAll (calls : List Call) :
    (calls.zip (v.runAll calls).1).countP (fun p ↦ p.2.outcome = .conflict) =
      ((v.runAll calls).1.filterMap Report.conflict?).length := by
  induction calls generalizing v with
  | nil => rfl
  | cons c cs ih =>
    simp only [runAll, List.zip_cons_cons, List.countP_cons, List.filterMap_cons, ih]
    simp only [decide_eq_true_eq, Report.outcome_eq_conflict_iff]
    cases (v.call c).1.conflict? <;> simp

/-- Every call of a run adds one to the counter of its action and outcome, and to that of its kind of
conflict if it is one, and to no other; the counters after a run from none are those of its reports. -/
theorem runAll_counted (s : Store) (hcalls : ∀ c ∈ calls, c.Untranslated) :
    let reports := ((start s).runAll calls).1
    let m := ((start s).runAll calls).2.metrics
    (∀ before c after, calls = before ++ c :: after →
      let v := ((start s).runAll before).2
      let r := (v.call c).1
      reports[before.length]? = some r ∧
        (∀ a o, (v.call c).2.metrics.commandCount a o =
          v.metrics.commandCount a o + if c.command.action = a ∧ r.outcome = o then 1 else 0) ∧
        ∀ k, (v.call c).2.metrics.conflictCount k =
          v.metrics.conflictCount k + if r.conflict? = some k then 1 else 0) ∧
      (∀ a o, m.commandCount a o =
        (calls.zip reports).countP fun p ↦ p.1.command.action = a ∧ p.2.outcome = o) ∧
      (∀ k, m.conflictCount k = reports.countP fun r ↦ r.conflict? = some k) ∧
      (Metrics.kinds.map m.conflictCount).sum =
        (Metrics.actions.map fun a ↦ m.commandCount a .conflict).sum ∧
      ∀ r ∈ reports, ∀ threshold ≤ Log.info,
        r.Logs (r.log.filter fun l ↦ Log.isEmitted threshold l.level) := by
  intro reports m
  have hm : m = ⟨(calls.zip reports).map fun p ↦ (p.1.command.action, p.2.outcome),
      reports.filterMap Report.conflict?⟩ := metrics_runAll hcalls
  refine ⟨?_, fun a o ↦ ?_, fun k ↦ ?_, ?_, fun r hr ↦ ?_⟩
  · rintro before c after rfl v r
    have hc : c.Untranslated := hcalls c (List.mem_append_right before List.mem_cons_self)
    refine ⟨getElem?_runAll _ before after c, fun a o ↦ ?_, fun k ↦ ?_⟩
    · rw [metrics_call hc, Metrics.commandCount_append]
      simp [Metrics.commandCount, List.count_singleton, r]
    · rw [metrics_call hc, Metrics.conflictCount_append]
      change _ = _ + if (v.call c).1.conflict? = some k then 1 else 0
      cases (v.call c).1.conflict? <;> simp [Metrics.conflictCount, List.count_singleton]
  · rw [hm, Metrics.commandCount, List.count_eq_countP, List.countP_map]
    refine List.countP_congr fun p _ ↦ ?_
    simp
  · rw [hm, Metrics.conflictCount, List.count_eq_countP, List.countP_filterMap]
    refine List.countP_congr fun r _ ↦ ?_
    cases r.conflict? <;> simp
  · rw [Metrics.sum_conflictCount, Metrics.sum_commandCount, hm, List.countP_map]
    exact (countP_conflict_runAll calls).symm
  · obtain ⟨c, -, hr⟩ := accounted_of_mem_runAll hcalls hr
    exact hr.log

theorem runAll_counted_of_refused :
    let late : Fault := ⟨.commit, .violation ⟨.other, "FOREIGN KEY constraint failed"⟩⟩
    let calls : List Call := [⟨.create Sample.monthly.dump, none⟩, ⟨.create Sample.weekly.dump, some late⟩,
      ⟨.delete 7, none⟩, ⟨.delete 1, some ⟨.delete, .halted "timeout"⟩⟩]
    let m := ((start Sample.store).runAll calls).2.metrics
    (∀ c ∈ calls, c.Untranslated) ∧ m.commandCount .create .success = 1 ∧
      m.commandCount .create .conflict = 1 ∧ m.commandCount .delete .rejected = 1 ∧
      m.commandCount .delete .failed = 1 ∧ m.conflictCount .other = 1 := by
  intro late calls m
  have hcalls : ∀ c ∈ calls, c.Untranslated := by
    intro c hc f hf e he
    simp only [calls, late, List.mem_cons, List.not_mem_nil, or_false] at hc
    rcases hc with rfl | rfl | rfl | rfl <;> cases hf <;> cases he
  obtain ⟨-, hcommand, hconflict, -⟩ := runAll_counted Sample.store hcalls
  refine ⟨hcalls, ?_, ?_, ?_, ?_, ?_⟩
  · exact (hcommand .create .success).trans rfl
  · exact (hcommand .create .conflict).trans rfl
  · exact (hcommand .delete .rejected).trans rfl
  · exact (hcommand .delete .failed).trans rfl
  · exact (hconflict .other).trans rfl

end Service
end Provisioning
