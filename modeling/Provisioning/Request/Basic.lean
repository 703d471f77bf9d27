import Provisioning.Band
import Provisioning.Request.Reader

namespace Provisioning.Request

structure BandEntry where
  id : Presence Int
  categoryId : Int
  minAge : Int
  maxAge : Int
  percentage : Decimal
  liability : Int
  expense : Int
  deriving DecidableEq, Repr

/-- Products that are left out are none. -/
structure NewCriteria where
  name : String
  bands : List BandEntry
  products : Option (List Int)
  deriving DecidableEq, Repr

/-- What is left out or `null` stays as it is. -/
structure Changes where
  name : Presence String
  bands : Presence (List BandEntry)
  products : Presence (List Int)
  deriving DecidableEq, Repr

def dumpField (key : String) (f : α → Value) : Presence α → Value.Fields
  | .absent => []
  | .null => [(key, .null)]
  | .given a => [(key, f a)]

namespace BandEntry

def keys : List String :=
  ["id", "category_id", "min_age", "max_age", "provisioning_percentage", "liability_account",
    "expense_account"]

def read (origin : Origin) : Reader BandEntry
  | .object fields => do
    let id ← nullable integer fields "id"
    let categoryId ← required integer fields "category_id"
    let minAge ← required integer fields "min_age"
    let maxAge ← required integer fields "max_age"
    let percentage ← required decimal fields "provisioning_percentage"
    let liability ← required integer fields "liability_account"
    let expense ← required integer fields "expense_account"
    checkKeys keys fields
    return { id, categoryId, minAge, maxAge, percentage, liability, expense }
  | .brokenObject _ => .error ⟨[], .brokenText⟩
  | _ => .error ⟨[], origin.notObject .band⟩

def dump (e : BandEntry) : Value :=
  .object (dumpField "id" .int e.id ++ [
    ("category_id", .int e.categoryId),
    ("min_age", .int e.minAge),
    ("max_age", .int e.maxAge),
    ("provisioning_percentage", .decimal e.percentage),
    ("liability_account", .int e.liability),
    ("expense_account", .int e.expense)])

def request (e : BandEntry) : BandRequest where
  id := e.id.value?
  categoryId := e.categoryId
  minAge := .int e.minAge
  maxAge := .int e.maxAge
  percentage := .decimal e.percentage
  liability := e.liability
  expense := e.expense

def newRequest (e : BandEntry) : BandRequest := { e.request with id := none }

end BandEntry

def keys : List String := ["criteria_name", "definitions", "loan_products"]

namespace NewCriteria

def read (origin : Origin) : Reader NewCriteria
  | .object fields => do
    let name ← required Request.name fields "criteria_name"
    let bands ← required (nonEmptyList (BandEntry.read origin)) fields "definitions"
    let products ← optional (list integer) fields "loan_products"
    checkKeys keys fields
    return { name, bands, products }
  | .brokenObject _ => .error ⟨[], .brokenText⟩
  | _ => .error ⟨[], origin.notObject .newCriteria⟩

def dump (r : NewCriteria) : Value :=
  .object ([("criteria_name", .str r.name), ("definitions", .list (r.bands.map BandEntry.dump))]
    ++ match r.products with
      | none => []
      | some ids => [("loan_products", .ofInts ids)])

def productIds (r : NewCriteria) : List Int := r.products.getD []

end NewCriteria

namespace Changes

def read (origin : Origin) : Reader Changes
  | .object fields => do
    let name ← nullable Request.name fields "criteria_name"
    let bands ← nullable (list (BandEntry.read origin)) fields "definitions"
    let products ← nullable (list integer) fields "loan_products"
    checkKeys keys fields
    return { name, bands, products }
  | .brokenObject _ => .error ⟨[], .brokenText⟩
  | _ => .error ⟨[], origin.notObject .changes⟩

def dump (r : Changes) : Value :=
  .object (dumpField "criteria_name" .str r.name
    ++ dumpField "definitions" (fun bands ↦ .list (bands.map BandEntry.dump)) r.bands
    ++ dumpField "loan_products" .ofInts r.products)

end Changes
end Provisioning.Request
