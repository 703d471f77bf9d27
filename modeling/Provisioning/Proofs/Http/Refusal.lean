import Provisioning.Proofs.Http.Server
import Provisioning.Proofs.Request.Refusal

namespace Provisioning

theorem intercalate_concat (sep x : String) {parts : List String} (h : parts ≠ []) :
    sep.intercalate (parts ++ [x]) = sep.intercalate parts ++ (sep ++ x) := by
  induction parts with
  | nil => exact absurd rfl h
  | cons part parts ih =>
    cases parts with
    | nil => simp [String.append_assoc]
    | cons part' parts =>
      simp only [List.cons_append, String.intercalate_cons_cons] at ih ⊢
      rw [ih (List.cons_ne_nil _ _)]
      simp only [String.append_assoc]

theorem Path.text_concat_body_ne (p : Path) : Path.text (p ++ [Step.key "body"]) ≠ Path.text p := by
  cases p with
  | nil => decide
  | cons step p =>
    have htext : String.intercalate "." (((step :: p) ++ [Step.key "body"]).map Step.text) =
        String.intercalate "." ((step :: p).map Step.text) ++ ".body" := by
      rw [List.map_append]
      exact intercalate_concat "." "body" (List.cons_ne_nil _ _)
    have happend (s : String) : s ++ ".body" ≠ "" ∧ s ++ ".body" ≠ s := by
      have hlength : (s ++ ".body").length = s.length + 5 := by
        rw [String.length_append]
        rfl
      exact ⟨fun h ↦ by simp [h] at hlength, fun h ↦ by rw [h] at hlength; omega⟩
    rw [Path.text, Path.text, htext, if_neg (happend _).1]
    split
    · rename_i h
      rw [h]
      decide
    · exact (happend _).2

def Value.IsObject : Value → Prop
  | .object _ | .brokenObject _ => True
  | _ => False

namespace Refusal

variable {r : Refusal}

theorem Placed.cases (h : r.Placed) :
    ¬ r.OfBodyKey ∧ (∀ s ∈ r.path, s.text ≠ "body") ∨
      r.OfBodyKey ∧ ∃ p : Path, r.path = p ++ [.key "body"] ∧ ∀ s ∈ p, s.text ≠ "body" := by
  obtain ⟨p, hp, rfl | ⟨hfault, hpath⟩⟩ := h
  · exact .inl ⟨fun hbody ↦ hp _ (List.mem_of_getLast? hbody.2) rfl, hp⟩
  · exact .inr ⟨⟨hfault, by rw [hpath, List.getLast?_concat]⟩, p, hpath, hp⟩

end Refusal

namespace Http

open Provisioning.Request (NewCriteria Changes)

theorem fieldOf_eq_text {p : Path} (hp : ∀ s ∈ p, s.text ≠ "body") : fieldOf p = p.text := by
  rw [fieldOf, List.filter_eq_self.2 fun s hs ↦ bne_iff_ne.2 (hp s hs)]

theorem fieldOf_concat_body {p : Path} (hp : ∀ s ∈ p, s.text ≠ "body") :
    fieldOf (p ++ [.key "body"]) = p.text := by
  rw [← fieldOf_eq_text hp, fieldOf, fieldOf, List.filter_append]
  congr 1
  exact List.append_nil _

theorem fieldOf_eq_iff {r : Refusal} (h : r.Placed) : fieldOf r.path = r.path.text ↔ ¬ r.OfBodyKey := by
  rcases h.cases with ⟨hbody, hp⟩ | ⟨hbody, p, hpath, hp⟩
  · exact iff_of_true (fieldOf_eq_text hp) hbody
  · rw [hpath, fieldOf_concat_body hp]
    exact iff_of_false (Path.text_concat_body_ne p).symm (not_not_intro hbody)

theorem fieldOf_eq_dropLast {r : Refusal} (h : r.Placed) (hr : r.OfBodyKey) :
    fieldOf r.path = Path.text r.path.dropLast := by
  rcases h.cases with ⟨hbody, -⟩ | ⟨-, p, hpath, hp⟩
  · exact absurd hr hbody
  · rw [hpath, fieldOf_concat_body hp, List.dropLast_concat]

def refusalValue (message field : String) : Value :=
  .object [("error", .object
    [("code", .str validationCode), ("message", .str message), ("field", .str field)])]

/-- The request is for a command that would be refused, with an object as its argument. -/
inductive RefusedAs (q : Request) (r : Refusal) : Prop
  | post {v : Value} : v.IsObject → Route.ofPath? (path q.target) = some .collection →
    q.method.toUpper = "POST" → q.content = .ok (some v) → NewCriteria.read .call v = .error r → RefusedAs q r
  | put {v : Value} {id : String} {n : Int} : v.IsObject → Route.ofPath? (path q.target) = some (.item id) →
    Server.itemId id = .ok n → q.method.toUpper = "PUT" → q.content = .ok (some v) →
    Changes.read .call v = .error r → RefusedAs q r

variable {q : Request} {r : Refusal}

theorem RefusedAs.placed (h : RefusedAs q r) : r.Placed := by
  cases h with
  | post _ _ _ _ hread => exact NewCriteria.places_read _ _ _ hread
  | put _ _ _ _ _ hread => exact Changes.places_read _ _ _ hread

namespace Server

variable {s : Server}

theorem handle_of_dispatch {route : Route} {t : Server} {v : Value} {status : Nat}
    (hroute : Route.ofPath? (path q.target) = some route)
    (hmethod : q.method.toUpper ≠ "HEAD")
    (h : s.dispatch route q.method.toUpper q = (.answer status v, t)) :
    (s.handle q).1 = ⟨status, some "application/json", .json v, some (requestId q)⟩ ∧
      (s.handle q).2.service = t.service := by
  simp only [handle, hroute, h, send, if_neg hmethod]
  exact ⟨trivial, rfl⟩

/-- A refused body is answered by a response that names its field, and nothing else happens. -/
theorem handle_eq_of_refusedAs (s : Server) (h : RefusedAs q r) :
    ∃ message, (s.handle q).1 = ⟨400, some "application/json",
        .json (refusalValue message (fieldOf r.path)), some (requestId q)⟩ ∧
      (s.handle q).2.service = s.service := by
  cases h with
  | post _ hroute hmethod hcontent hread =>
    obtain ⟨b, hbody, hmatch⟩ := (NewCriteria.matched_read _).exists_error hread
    have hpost : s.dispatch .collection q.method.toUpper q =
        (.answer 400 (refusalValue b.fault.message (fieldOf r.path)), s) := by
      rw [hmethod, dispatch, ← hmatch.path]
      simp only [post, hcontent, readContent, hbody]
      rfl
    exact ⟨_, handle_of_dispatch hroute (by rw [hmethod]; decide) hpost⟩
  | @put _ id _ _ hroute hid hmethod hcontent hread =>
    obtain ⟨b, hbody, hmatch⟩ := (Changes.matched_read _).exists_error hread
    have hput : s.dispatch (.item id) q.method.toUpper q =
        (.answer 400 (refusalValue b.fault.message (fieldOf r.path)), s) := by
      rw [hmethod, dispatch, ← hmatch.path]
      simp only [put, hcontent, hid, readContent, hbody]
      rfl
    exact ⟨_, handle_of_dispatch hroute (by rw [hmethod]; decide) hput⟩

/-- Whatever object a client sends, a body that a call would refuse is answered with the field that the
call would name, but for an unknown key called `body`: then the field is the object that holds the key.
The store and the counters stay as they are. -/
theorem handle_of_refusedAs (s : Server) (h : RefusedAs q r) :
    (s.handle q).2.service = s.service ∧ (s.handle q).1.status = 400 ∧
      ∃ message field, (s.handle q).1.content = .json (refusalValue message field) ∧
        (field = (Problem.shape r).field ↔ ¬ r.OfBodyKey) ∧
        (r.OfBodyKey → field = Path.text r.path.dropLast) := by
  obtain ⟨message, hresponse, hservice⟩ := handle_eq_of_refusedAs s h
  rw [hresponse]
  exact ⟨hservice, rfl, message, fieldOf r.path, rfl, fieldOf_eq_iff h.placed,
    fieldOf_eq_dropLast h.placed⟩

end Server
end Http

namespace Sample

def put (body : String) : Http.Request where
  method := "PUT"
  target := "/v1/provisioningcriteria/1"
  headers := [("Content-Type", "application/json")]
  body

def refusal? : Value → Option Refusal
  | .object fields =>
    match Request.Changes.read .call (.object fields) with
    | .error r => some r
    | .ok _ => none
  | _ => none

theorem ofPath?_put (body : String) :
    Http.Route.ofPath? (Http.path (put body).target) = some (.item "1") := by
  have hpath : Http.path "/v1/provisioningcriteria/1" = "/v1/provisioningcriteria/1" := by
    decide +kernel
  have hstart : "/v1/provisioningcriteria/1".startsWith Http.Route.itemPrefix = true := by
    decide +kernel
  have hid : String.ofList ("/v1/provisioningcriteria/1".toList.drop Http.Route.itemPrefix.length) =
      "1" := by decide +kernel
  change Http.Route.ofPath? (Http.path "/v1/provisioningcriteria/1") = _
  rw [hpath, Http.Route.ofPath?]
  dsimp only
  rw [if_neg (by decide), if_neg (by decide), if_neg (by decide), if_pos hstart, hid]
  simp

theorem refusedAs_put {body : String} {r : Refusal}
    (hcs : body.toList = '\x7b' :: body.toList.tail)
    (h : (Json.read body.toList).toOption.bind refusal? = some r) : Http.RefusedAs (put body) r := by
  have hheader : (put body).header? "content-type" = some "application/json" := by
    simp only [put, Http.Request.header?]
    decide +kernel
  have hmethod : (put body).method.toUpper = "PUT" := by
    change "PUT".toUpper = "PUT"
    decide +kernel
  obtain ⟨v, hv, hr⟩ := Option.bind_eq_some_iff.1 h
  have hcontent := content_of_json hheader hcs (eq_ok_of_toOption hv)
  cases v with
  | object fields =>
    rw [refusal?] at hr
    split at hr
    · rename_i r' hread
      rw [Option.some.inj hr] at hread
      exact .put (v := .object fields) trivial (ofPath?_put body) rfl hmethod hcontent hread
    · cases hr
  | _ => cases hr

end Sample

namespace Http.Server

theorem handle_of_missing_category :
    let q := Sample.put "\x7b\"definitions\":[\x7b\x7d]\x7d"
    let r : Refusal := ⟨[.key "definitions", .index 0, .key "category_id"], .missing⟩
    RefusedAs q r ∧
      (∃ message, ((start Sample.created).handle q).1.content =
        .json (refusalValue message "definitions.0.category_id")) ∧
      ((start Sample.created).handle q).2.service = (start Sample.created).service := by
  intro q r
  have hrefused : RefusedAs q r := Sample.refusedAs_put (by decide +kernel) (by decide +kernel)
  obtain ⟨hservice, -, message, field, hcontent, hfield, -⟩ :=
    handle_of_refusedAs (start Sample.created) hrefused
  rw [hfield.2 (by decide)] at hcontent
  exact ⟨hrefused, ⟨message, hcontent⟩, hservice⟩

/-- A call names the unknown key, but the answer over HTTP only names the whole body. -/
theorem handle_of_body_key :
    let q := Sample.put "\x7b\"body\":1\x7d"
    let r : Refusal := ⟨[.key "body"], .unknownKey⟩
    RefusedAs q r ∧ (Problem.shape r).field = "body" ∧
      ∃ message, ((start Sample.store).handle q).1.content = .json (refusalValue message "payload") := by
  intro q r
  have hrefused : RefusedAs q r := Sample.refusedAs_put (by decide +kernel) (by decide +kernel)
  obtain ⟨message, hresponse, -⟩ := handle_eq_of_refusedAs (start Sample.store) hrefused
  have hfield : fieldOf r.path = "payload" := by decide +kernel
  rw [hfield] at hresponse
  exact ⟨hrefused, by decide +kernel, message, congrArg Response.content hresponse⟩

end Http.Server
end Provisioning
