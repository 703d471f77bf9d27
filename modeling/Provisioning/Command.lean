import Provisioning.Log.Line
import Provisioning.Metrics
import Provisioning.Revision
import Provisioning.Store.Save

namespace Provisioning

structure CommandResult where
  resourceId : Int
  changes : ChangeSet

inductive CallPoint where
  | save | delete | commit
  deriving DecidableEq, Repr

/-- A call that fails if the command comes to it. -/
structure Fault where
  point : CallPoint
  failure : Failure

def reach (fault : Option Fault) (point : CallPoint) : Transaction Unit :=
  match fault with
  | some f => .ofExcept (if f.point = point then .error f.failure else .ok ())
  | none => pure ()

namespace Store

def createFrom (fault : Option Fault) (r : Request.NewCriteria) : Transaction CommandResult := do
  let s ← Transaction.current
  let c ← .ofExcept (s.directory.assemble r).answer
  reach fault .save
  let h ← write c.snapshot
  reach fault .commit
  return ⟨h.id, .empty⟩

def updateFrom (fault : Option Fault) (id : Int) (r : Request.Changes) :
    Transaction CommandResult := do
  let s ← Transaction.current
  let (c, changes) ← .ofExcept (s.revise id r)
  if !changes.isEmpty then
    reach fault .save
    let _ ← write c.snapshot
  reach fault .commit
  return ⟨id, changes⟩

def deleteUnused (fault : Option Fault) (id : Int) : Transaction CommandResult := do
  let s ← Transaction.current
  let _ ← .ofExcept (s.get id)
  if ← .ofExcept (s.isUsed id) then Transaction.ofExcept (.error (.domain (.inUse (.int id))))
  reach fault .delete
  let t ← .ofExcept (s.delete id)
  Transaction.modify fun _ ↦ t
  reach fault .commit
  return ⟨id, .empty⟩

end Store

structure Report where
  answer : Except Failure CommandResult
  store : Store
  metrics : Metrics
  log : List Log.Line

def Violation.log (v : Violation) : List Log.Line :=
  match v.kind with
  | .other => [{
      logger := Log.rootLogger
      level := Log.error
      message := "Unknown data integrity issue: " ++ v.message
      extra := [("step", .str "conflict_translation"), ("constraint_kind", .str v.kind.name),
        ("exc_info", .bool true)] }]
  | _ => []

def Action.rejection (a : Action) (e : DomainError) : Log.Line where
  logger := Log.rootLogger
  level := Log.warning
  message := "Provisioning criteria " ++ a.name ++ " rejected: " ++ e.message
  extra := [("step", .str ("criteria_" ++ a.name)), ("error_code", .str e.code)]

/-- Ends a command: on success the copy that it worked on is kept, on any failure the store that it
began with. -/
def Report.close (a : Action) (before : Store) (name : Option String) :
    Except Failure CommandResult × Store → Report
  | (.ok result, after) => {
      answer := .ok result
      store := after
      metrics := ⟨[(a, .success)], []⟩
      log := [Log.completed a.name (.int result.resourceId) result.changes .null] }
  | (.error (.violation v), _) => {
      answer := .error (.domain (v.conflict name))
      store := before
      metrics := ⟨[(a, .conflict)], [v.kind]⟩
      log := v.log }
  | (.error (.domain e), _) => {
      answer := .error (.domain e)
      store := before
      metrics := ⟨[(a, .rejected)], []⟩
      log := [a.rejection e] }
  | (.error e, _) => {
      answer := .error e
      store := before
      metrics := ⟨[(a, .failed)], []⟩
      log := [] }

namespace Store

def create (s : Store) (payload : Value) (fault : Option Fault) : Report :=
  match Request.NewCriteria.read .call payload with
  | .error r => .close .create s none (.error (.problem (.shape r)), s)
  | .ok r => .close .create s (some r.name) ((createFrom fault r).run s)

def update (s : Store) (id : Int) (payload : Value) (fault : Option Fault) : Report :=
  match Request.Changes.read .call payload with
  | .error r => .close .update s none (.error (.problem (.shape r)), s)
  | .ok r => .close .update s r.name.value? ((updateFrom fault id r).run s)

def remove (s : Store) (id : Int) (fault : Option Fault) : Report :=
  .close .delete s none ((deleteUnused fault id).run s)

end Store

inductive Command where
  | create (payload : Value)
  | update (id : Int) (payload : Value)
  | delete (id : Int)

def Command.run (s : Store) (fault : Option Fault) : Command → Report
  | create payload => s.create payload fault
  | update id payload => s.update id payload fault
  | delete id => s.remove id fault

structure Service where
  store : Store
  metrics : Metrics

namespace Service

def start (store : Store) : Service := ⟨store, .empty⟩

def run (s : Service) (fault : Option Fault) (c : Command) : Report × Service :=
  let report := c.run s.store fault
  (report, ⟨report.store, s.metrics.append report.metrics⟩)

end Service
end Provisioning
