import Provisioning.Http.Server
import Provisioning.Proofs.Command.Changes
import Provisioning.Proofs.Request.Dump

namespace Provisioning

theorem eq_ok_of_toOption {ε α : Type} {x : Except ε α} {a : α} (h : x.toOption = some a) :
    x = .ok a := by
  cases x with
  | error e => cases h
  | ok b => exact congrArg Except.ok (Option.some.inj h)

section Commands

variable {payload : Value} {origin : Request.Origin}

theorem Command.run_create_dump {r : Request.NewCriteria}
    (h : Request.NewCriteria.read origin payload = .ok r) (s : Store) (fault : Option Fault) :
    (Command.create r.dump).run s fault = (Command.create payload).run s fault := by
  have hdump : Request.NewCriteria.read .call r.dump = .ok r := Request.NewCriteria.read_dump h
  have hcall : Request.NewCriteria.read .call payload = .ok r := Request.NewCriteria.read_of_read h
  simp only [Command.run, Store.create, hdump, hcall]

theorem Command.run_update_dump {r : Request.Changes}
    (h : Request.Changes.read origin payload = .ok r) (id : Int) (s : Store) (fault : Option Fault) :
    (Command.update id r.dump).run s fault = (Command.update id payload).run s fault := by
  have hdump : Request.Changes.read .call r.dump = .ok r := Request.Changes.read_dump h
  have hcall : Request.Changes.read .call payload = .ok r := Request.Changes.read_of_read h
  simp only [Command.run, Store.update, hdump, hcall]

end Commands

namespace Http.Server

open Provisioning.Request (NewCriteria Changes Mirrors)

variable {s : Server} {q : Request} {body : Value}

/-- What came out is the answer of the command, with the store that it left and with its counts. -/
structure Performs (s : Server) (c : Command) (out : Reply × Server) : Prop where
  store : out.2.store = (c.run s.store none).store
  metrics : out.2.service.metrics = s.service.metrics.append (c.run s.store none).metrics
  observed : out.2.observed = s.observed
  result : ∀ res, (c.run s.store none).answer = .ok res → out.1 = .ok (resultValue res)
  failure : ∀ e, (c.run s.store none).answer = .error e → out.1 = .ofFailure e

theorem performs_run (s : Server) (c : Command) : s.Performs c (s.run c) where
  store := rfl
  metrics := rfl
  observed := rfl
  result res h := by simp [run, Service.run, store] at h ⊢; simp [h]
  failure e h := by simp [run, Service.run, store] at h ⊢; simp [h]

theorem Performs.congr {c d : Command} {out : Reply × Server} (h : c.run s.store none = d.run s.store none)
    (hc : s.Performs c out) : s.Performs d out where
  store := h ▸ hc.store
  metrics := h ▸ hc.metrics
  observed := hc.observed
  result := h ▸ hc.result
  failure := h ▸ hc.failure

theorem performs_post {r : NewCriteria} (hcontent : q.content = .ok (some body))
    (hread : NewCriteria.read .body body = .ok r) :
    s.Performs (.create body) (s.dispatch .collection "POST" q) := by
  have hpost : s.dispatch .collection "POST" q = s.run (.create r.dump) := by
    simp only [dispatch, post, hcontent, readContent, hread]
  rw [hpost]
  exact (s.performs_run _).congr (Command.run_create_dump hread s.store none)

theorem performs_put {r : Changes} {id : String} {n : Int} (hcontent : q.content = .ok (some body))
    (hid : itemId id = .ok n) (hread : Changes.read .body body = .ok r) :
    s.Performs (.update n body) (s.dispatch (.item id) "PUT" q) := by
  have hput : s.dispatch (.item id) "PUT" q = s.run (.update n r.dump) := by
    simp only [dispatch, put, hcontent, hid, readContent, hread]
  rw [hput]
  exact (s.performs_run _).congr (Command.run_update_dump hread n s.store none)

end Http.Server

namespace Sample

def spelled : Http.Request where
  method := "PUT"
  target := "/v1/provisioningcriteria/1"
  headers := [("Content-Type", "application/json")]
  body := "\x7b\"criteria_name\":null,\"definitions\":" ++ "[\x7b\"id\":null,\"category_id\":true," ++
    "\"min_age\":60.0,\"max_age\":\" 090.00\"," ++ "\"provisioning_percentage\":2.5," ++
    "\"liability_account\":\"1\"," ++ "\"expense_account\":2\x7d]\x7d"

def spelledChanges : Request.Changes := ⟨.null, .given [entry .null 60 90], .absent⟩

theorem isJsonType_json : Http.isJsonType "application/json" = true := by
  have hparts : "application/json".splitOn "/" = ["application", "json"] := by
    rw [String.splitOn, if_neg (by decide)]
    iterate 17 (rw [String.splitOnAux]; simp +decide only [↓reduceIte])
  have htype : (String.ofList (Text.trim Text.isBlank
      ("application/json".toList.takeWhile (· != ';')))).toLower = "application/json" := by decide +kernel
  rw [Http.isJsonType, htype, hparts]
  decide +kernel

theorem content_of_json {q : Http.Request} {cs : List Char} {v : Value}
    (hheader : q.header? "content-type" = some "application/json") (hcs : q.body.toList = '\x7b' :: cs)
    (h : Json.read q.body.toList = .ok v) : q.content = .ok (some v) := by
  have hempty : q.body.isEmpty = false := by
    rw [Bool.eq_false_iff]
    intro hempty
    rw [String.isEmpty_iff.1 hempty] at hcs
    cases hcs
  rw [hcs] at h
  simp [Http.Request.content, hempty, hheader, isJsonType_json, hcs, h]

theorem content_spelled {v : Value} (h : Json.read spelled.body.toList = .ok v) :
    spelled.content = .ok (some v) := by
  have hheader : spelled.header? "content-type" = some "application/json" := by decide +kernel
  have hcs : spelled.body.toList = '\x7b' :: spelled.body.toList.tail := by decide +kernel
  exact content_of_json hheader hcs h

end Sample

end Provisioning
