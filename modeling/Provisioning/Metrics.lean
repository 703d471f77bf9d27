import Provisioning.Error

namespace Provisioning

inductive Action where
  | create | update | delete
  deriving DecidableEq, Repr

def Action.name : Action → String
  | create => "create"
  | update => "update"
  | delete => "delete"

inductive Outcome where
  | success | conflict | rejected | failed
  deriving DecidableEq, Repr

def Outcome.name : Outcome → String
  | success => "success"
  | conflict => "conflict"
  | rejected => "rejected"
  | failed => "failed"

structure Metrics where
  commands : List (Action × Outcome)
  conflicts : List ConstraintKind
  deriving DecidableEq, Repr

namespace Metrics

def empty : Metrics := ⟨[], []⟩

def append (m n : Metrics) : Metrics := ⟨m.commands ++ n.commands, m.conflicts ++ n.conflicts⟩

def commandCount (m : Metrics) (a : Action) (o : Outcome) : Nat := m.commands.count (a, o)

def conflictCount (m : Metrics) (k : ConstraintKind) : Nat := m.conflicts.count k

/-- All labels, in the order of their names. -/
def actions : List Action := [.create, .delete, .update]

def outcomes : List Outcome := [.conflict, .failed, .rejected, .success]

def kinds : List ConstraintKind := [.criteriaName, .other, .productAssociation]

def commandCounters (m : Metrics) : List (Action × Outcome × Nat) :=
  (actions.flatMap fun a ↦ outcomes.map fun o ↦ (a, o, m.commandCount a o)).filter (0 < ·.2.2)

def conflictCounters (m : Metrics) : List (ConstraintKind × Nat) :=
  (kinds.map fun k ↦ (k, m.conflictCount k)).filter (0 < ·.2)

def lines (m : Metrics) : List String :=
  m.commandCounters.map (fun (a, o, n) ↦
    "provisioning_criteria_commands_total\x7baction=\"" ++ a.name ++ "\",outcome=\"" ++ o.name
      ++ "\"\x7d " ++ toString n ++ ".0")
  ++ m.conflictCounters.map (fun (k, n) ↦
    "provisioning_criteria_conflicts_total\x7bkind=\"" ++ k.name ++ "\"\x7d " ++ toString n ++ ".0")

end Metrics
end Provisioning
