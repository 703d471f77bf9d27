import Provisioning.Command
import Provisioning.Http.Body
import Provisioning.Http.Target
import Provisioning.Settings.Basic

namespace Provisioning.Http

inductive Content where
  | json (v : Value)
  | text (s : String)
  | counters (lines : List String)

inductive RequestId where
  | given (id : String)
  | fresh

structure Response where
  status : Nat
  type : Option String
  content : Content
  id : Option RequestId

/-- A finished request, as its duration is measured. -/
structure Observation where
  method : String
  endpoint : String
  status : Nat
  deriving DecidableEq, Repr

def Observation.le (a b : Observation) : Bool :=
  if a.method ≠ b.method then a.method < b.method
  else if a.endpoint ≠ b.endpoint then a.endpoint < b.endpoint
  else toString a.status ≤ toString b.status

structure Server where
  service : Service
  observed : List Observation

inductive Reply where
  | answer (status : Nat) (v : Value)
  | counters
  | broken

namespace Reply

def ok (v : Value) : Reply := answer 200 v

def detail (status : Nat) (text : String) : Reply :=
  answer status (.object [("detail", .str text)])

def notFound : Reply := detail 404 "Not Found"

def methodNotAllowed : Reply := detail 405 "Method Not Allowed"

def error (status : Nat) (code message : String) (field : Option String) : Reply :=
  answer status (.object [("error", .object (
    [("code", .str code), ("message", .str message)]
      ++ match field with
        | some f => [("field", .str f)]
        | none => []))])

end Reply

def errorStatus : DomainError → Nat
  | .notFound .. => 404
  | .conflict _ | .nameTaken _ | .productTaken | .inUse _ | .integrity _ => 409
  | .general _ | .invalid _ => 400

def errorField : DomainError → Option String
  | .invalid p => some p.field
  | _ => none

def Reply.ofError (e : DomainError) : Reply := error (errorStatus e) e.code e.message (errorField e)

def Reply.ofFailure : Failure → Reply
  | .domain e => .ofError e
  | _ => .broken

def validationCode : String := (DomainError.invalid .blankName).code

/-- The field that a refusal names, where parts that are called `body` do not count. -/
def fieldOf (p : Path) : String := Path.text (p.filter fun s ↦ s.text != "body")

def Reply.ofRefusal (r : Refusal) : Reply :=
  error 400 validationCode r.fault.message (some (fieldOf r.path))

def Reply.ofBodyFault : BodyFault → Reply
  | .notJson position => error 400 validationCode "JSON decode error" (some (toString position))
  | .unreadable => detail 400 "There was an error parsing the body"

def bandValue (b : Band) : Value :=
  .object [
    ("id", Value.optional .int b.id),
    ("category_id", .int b.categoryId),
    ("category_name", .str b.categoryName),
    ("min_age", .int b.minAge),
    ("max_age", .int b.maxAge),
    ("provisioning_percentage", .decimal b.percentage),
    ("liability_account", .int b.liability.id),
    ("liability_code", .str b.liability.code),
    ("liability_name", .str b.liability.name),
    ("expense_account", .int b.expense.id),
    ("expense_code", .str b.expense.code),
    ("expense_name", .str b.expense.name)]

def productValue (p : Product) : Value := .object [("id", .int p.id), ("name", .str p.name)]

/-- A stored criteria; of its two times it is shown only that they are set. -/
def criteriaValue (c : Criteria) : Value :=
  .object [
    ("criteria_id", Value.optional .int c.id),
    ("criteria_name", .str c.name),
    ("definitions", .list (c.bands.map bandValue)),
    ("loan_products", .list (c.products.map productValue)),
    ("created_at", .bool true),
    ("updated_at", .bool true)]

def resultValue (r : CommandResult) : Value :=
  .object [("resource_id", .int r.resourceId), ("changes", .object r.changes.changes)]

namespace Server

def start (store : Store) : Server := ⟨.start store, []⟩

def store (s : Server) : Store := s.service.store

def run (s : Server) (c : Command) : Reply × Server :=
  let (report, service) := s.service.run none c
  (match report.answer with
    | .ok result => .ok (resultValue result)
    | .error e => .ofFailure e,
   { s with service })

def itemId (id : String) : Except Refusal Int :=
  (Request.integerOfText id).mapError fun fault ↦ ⟨[.key "path", .key "criteria_id"], fault⟩

def post (s : Server) (r : Request) : Reply × Server :=
  match r.content with
  | .error fault => (.ofBodyFault fault, s)
  | .ok content =>
    match readContent Request.NewCriteria.read content with
    | .error refusal => (.ofRefusal refusal, s)
    | .ok request => s.run (.create request.dump)

def put (s : Server) (id : String) (r : Request) : Reply × Server :=
  match r.content with
  | .error fault => (.ofBodyFault fault, s)
  | .ok content =>
    match itemId id with
    | .error refusal => (.ofRefusal refusal, s)
    | .ok id =>
      match readContent Request.Changes.read content with
      | .error refusal => (.ofRefusal refusal, s)
      | .ok request => s.run (.update id request.dump)

def delete (s : Server) (id : String) : Reply × Server :=
  match itemId id with
  | .error refusal => (.ofRefusal refusal, s)
  | .ok id => s.run (.delete id)

def get (s : Server) (id : String) : Reply :=
  match itemId id with
  | .error refusal => .ofRefusal refusal
  | .ok id =>
    match s.store.get id with
    | .error e => .ofFailure e
    | .ok c => .ok (criteriaValue c)

def list (s : Server) : Reply :=
  match s.store.all with
  | .error e => .ofFailure e
  | .ok cs => .ok (.list (cs.map criteriaValue))

def health : Reply :=
  .ok (.object [("status", .str "ok"), ("service", .str Settings.default.serviceName)])

def dispatch (s : Server) (route : Route) (method : String) (r : Request) : Reply × Server :=
  match route, method with
  | .health, "GET" => (health, s)
  | .metrics, "GET" => (.counters, s)
  | .collection, "POST" => s.post r
  | .collection, "GET" => (s.list, s)
  | .item id, "GET" => (s.get id, s)
  | .item id, "PUT" => s.put id r
  | .item id, "DELETE" => s.delete id
  | _, _ => (.methodNotAllowed, s)

def observe (s : Server) (method endpoint : String) (status : Nat) : Server :=
  { s with observed := s.observed ++ [⟨method, endpoint, status⟩] }

def requestId (r : Request) : RequestId :=
  match r.header? "x-request-id" with
  | some id => if id.isEmpty then .fresh else .given id
  | none => .fresh

/-- Sends what a route answers. An answer to `HEAD` has no body, and an end that nobody foresaw is
not measured. -/
def send (s : Server) (method endpoint : String) (id : RequestId) : Reply → Response × Server
  | .broken =>
    (⟨500, some "text/plain; charset=utf-8", .text "Internal Server Error", none⟩, s)
  | .counters =>
    (⟨200, some "text/plain; version=1.0.0; charset=utf-8", .counters s.service.metrics.lines, some id⟩,
      s.observe method endpoint 200)
  | .answer status v =>
    (⟨status, some "application/json", if method = "HEAD" then .text "" else .json v, some id⟩,
      s.observe method endpoint status)

def handle (s : Server) (r : Request) : Response × Server :=
  let method := r.method.toUpper
  let id := requestId r
  let path := path r.target
  match Route.ofPath? path with
  | some route =>
    let (reply, s) := s.dispatch route method r
    s.send method route.template id reply
  | none =>
    if Route.isSlashed path then
      (⟨307, none, .text "", some id⟩, s.observe method (plainName path) 307)
    else s.send method (plainName path) id .notFound

def latency (s : Server) : List (Observation × Nat) :=
  (s.observed.eraseDups.mergeSort Observation.le).map fun o ↦ (o, s.observed.count o)

end Server
end Provisioning.Http
