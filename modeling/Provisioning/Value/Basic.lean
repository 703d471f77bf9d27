import Provisioning.Decimal.Basic
import Provisioning.Double.Basic

namespace Provisioning

inductive Value where
  | null
  | bool (b : Bool)
  | int (n : Int)
  | float (x : Double)
  | decimal (d : Decimal)
  | str (s : String)
  /-- A text with half a surrogate pair, which is no Unicode text. -/
  | brokenText
  | list (items : List Value)
  | object (fields : List (String × Value))
  /-- An object with a key that is no Unicode text. -/
  | brokenObject (fields : List (String × Value))
  deriving Inhabited

namespace Value

abbrev Fields := List (String × Value)

def Fields.insert (key : String) (v : Value) : Fields → Fields
  | [] => [(key, v)]
  | (k, w) :: fields => if k = key then (k, v) :: fields else (k, w) :: Fields.insert key v fields

def Fields.get? (fields : Fields) (key : String) : Option Value := fields.lookup key

def Fields.keys (fields : Fields) : List String := fields.map Prod.fst

/-- All of `other`, over what `fields` holds. -/
def Fields.merge (fields other : Fields) : Fields :=
  other.foldl (fun acc f ↦ acc.insert f.1 f.2) fields

def optional (f : α → Value) : Option α → Value
  | none => null
  | some a => f a

def ofInts (ns : List Int) : Value := list (ns.map int)

def ofStrings (ss : List String) : Value := list (ss.map str)

theorem Fields.get?_insert (fields : Fields) (key k : String) (v : Value) :
    (fields.insert key v).get? k = if k = key then some v else fields.get? k := by
  induction fields with
  | nil => by_cases h : k = key <;> simp [insert, get?, h]
  | cons f fields ih =>
    obtain ⟨a, w⟩ := f
    simp only [get?] at ih
    by_cases ha : a = key
    · subst ha
      by_cases hk : k = a <;> simp [insert, get?, List.lookup_cons, hk]
      simp [beq_eq_false_iff_ne.2 hk]
    · by_cases hk : k = a
      · subst hk
        simp [insert, get?, ha]
      · simp [insert, get?, List.lookup_cons, ha, beq_eq_false_iff_ne.2 hk, ih]

end Value
end Provisioning
