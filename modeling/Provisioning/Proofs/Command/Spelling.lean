import Provisioning.Proofs.Command.Run
import Provisioning.Proofs.Request.Spelling

namespace Provisioning

/-- The commands are the same but for the spelling of the numbers in their requests. -/
inductive Command.Respelled : Command → Command → Prop
  | create {v w : Value} (h : Request.Respelled v w) : Respelled (.create v) (.create w)
  | update (id : Int) {v w : Value} (h : Request.Respelled v w) : Respelled (.update id v) (.update id w)
  | delete (id : Int) : Respelled (.delete id) (.delete id)

theorem Command.run_respelled {c d : Command} (h : c.Respelled d) (s : Store) (fault : Option Fault) :
    c.run s fault = d.run s fault := by
  cases h with
  | create h => simp only [run, Store.create, Request.NewCriteria.read_respelled .call h]
  | update id h => simp only [run, Store.update, Request.Changes.read_respelled .call h]
  | delete id => rfl

namespace Sample

def bandOf (category low high percentage : Value) : Value :=
  .object [("category_id", category), ("min_age", low), ("max_age", high),
    ("provisioning_percentage", percentage), ("liability_account", .int 1), ("expense_account", .int 2)]

def criteriaOf (band product : Value) : Value :=
  .object [("criteria_name", .str "Monthly"), ("definitions", .list [band]), ("loan_products", .list [product])]

open Request

variable {b b' p p' category category' low low' high high' percentage percentage' : Value}

theorem respelled_bandOf (hcategory : SameInteger category category') (hlow : SameInteger low low')
    (hhigh : SameInteger high high') (hpercentage : SamePercentage percentage percentage') :
    BandEntry.Respelled (bandOf category low high percentage) (bandOf category' low' high' percentage') := by
  refine .object ?_
  simp [BandEntry.Renumbers, hcategory, hlow, hhigh, hpercentage]

theorem respelled_criteriaOf (hband : BandEntry.Respelled b b') (hproduct : SameInteger p p') :
    Respelled (criteriaOf b p) (criteriaOf b' p') := by
  have hbands : ItemsRelated BandEntry.Respelled (.list [b]) (.list [b']) := .list (by simp [hband])
  have hproducts : ItemsRelated SameInteger (.list [p]) (.list [p']) := .list (by simp [hproduct])
  refine .object ?_
  simp [Renumbers, hbands, hproducts]

end Sample

namespace Store

open Request

/-- Whatever the store, two requests that differ in the spelling of numbers get the same answer, and the stores
that are left are the same. A text of at most 4300 characters spells the number that is written in it. -/
theorem answers_respelled {v w : Value} (h : Respelled v w) (s : Store) (fault : Option Fault) :
    s.create v fault = s.create w fault ∧ (∀ id, s.update id v fault = s.update id w fault) ∧
      ∀ (u : Whole) (text : String), u.Proper → u.text = Text.trim Text.isSpace text.toList →
        text.length ≤ 4300 → SameInteger (.int u.value) (.str text) := by
  refine ⟨Command.run_respelled (.create h) s fault, fun id ↦ Command.run_respelled (.update id h) s fault, ?_⟩
  intro u text hproper htext hlength
  exact ⟨u.value, rfl, spelledInText_of_length_le hlength hproper htext⟩

theorem answers_respelled_of_texts :
    let plain := Sample.criteriaOf
      (Sample.bandOf (.int 1) (.int 0) (.int 30) (.float (.ofScientific false 25 (-1)))) (.int 1)
    let texts := Sample.criteriaOf
      (Sample.bandOf (.str " +0__1.00 ") (.str "-0") (.float (.ofScientific false 30 0)) (.str "25e-1")) (.str "01")
    Respelled plain texts ∧ (∃ res, (Sample.store.create plain none).answer = .ok res ∧ res.resourceId = 1) ∧
      Sample.store.create plain none = Sample.store.create texts none := by
  intro plain texts
  have hinteger {n : ℤ} {v w : Value} (hv : readInteger v = .ok n) (hw : readInteger w = .ok n) :
      SameInteger v w := ⟨n, readInteger_eq_ok_iff.1 hv, readInteger_eq_ok_iff.1 hw⟩
  have hcategory : SameInteger (.int 1) (.str " +0__1.00 ") := hinteger rfl (by decide +kernel)
  have hlow : SameInteger (.int 0) (.str "-0") := hinteger rfl (by decide +kernel)
  have hhigh : SameInteger (.int 30) (.float (.ofScientific false 30 0)) := hinteger rfl (by decide +kernel)
  have hproduct : SameInteger (.int 1) (.str "01") := hinteger rfl (by decide +kernel)
  have hpercentage : SamePercentage (.float (.ofScientific false 25 (-1))) (.str "25e-1") :=
    ⟨.finite false 25 (-1), .spelled (readDecimal_eq_ok_iff.1 (by decide +kernel)),
      .spelled (readDecimal_eq_ok_iff.1 (by decide +kernel))⟩
  have hrespelled : Respelled plain texts := by
    have hband := Sample.respelled_bandOf hcategory hlow hhigh hpercentage
    exact Sample.respelled_criteriaOf hband hproduct
  refine ⟨hrespelled, ⟨⟨1, .empty⟩, ?_, rfl⟩, (answers_respelled hrespelled Sample.store none).1⟩
  rfl

end Store
end Provisioning
