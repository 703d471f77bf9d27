import Provisioning.Json.Reader
import Provisioning.Request.Basic

namespace Provisioning.Http

structure Request where
  method : String
  target : String
  headers : List (String × String)
  body : String

def Request.header? (r : Request) (name : String) : Option String :=
  (r.headers.find? fun h ↦ h.1.toLower == name).map Prod.snd

/-- `application/json` and `application/…+json`, in any case and with parameters. -/
def isJsonType (type : String) : Bool :=
  let s := (String.ofList (Text.trim Text.isBlank (type.toList.takeWhile (· != ';')))).toLower
  match s.splitOn "/" with
  | [main, sub] => main == "application" && (sub == "json" || sub.endsWith "+json")
  | _ => false

inductive BodyFault where
  | notJson (position : Nat)
  | unreadable

def Request.content (r : Request) : Except BodyFault (Option Value) :=
  if r.body.isEmpty then .ok none
  else
    match r.header? "content-type" with
    | none => .ok (some (.str r.body))
    | some type =>
      if isJsonType type then
        let s := match r.body.toList with
          | '\ufeff' :: s => s
          | s => s
        match Json.read s with
        | .ok v => .ok (some v)
        | .error (.malformed left) => .error (.notJson (s.length - left))
        | .error .numberTooLong => .error .unreadable
      else .ok (some (.str r.body))

/-- The request that a body holds. A missing body is a missing field. -/
def readContent (read : Request.Origin → Request.Reader α) : Option Value → Except Refusal α
  | none => .error ⟨[], .missing⟩
  | some v => read .body v

end Provisioning.Http
