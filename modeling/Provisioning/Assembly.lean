import Provisioning.Criteria
import Provisioning.Directory
import Provisioning.Request.Basic

namespace Provisioning

namespace Directory

def validate (d : Directory) (r : BandRequest) (others : List Band) : Traced Band := do
  let _ ← Traced.check (checkAges r.minAge r.maxAge)
  let _ ← Traced.check (checkPercentage r.percentage)
  let category ← d.findCategory r.categoryId
  let liability ← d.findAccount r.liability
  let expense ← d.findAccount r.expense
  Traced.check (r.build category liability expense others none)

def validateAll (d : Directory) (bands : List Band) : List BandRequest → Traced (List Band)
  | [] => pure bands
  | r :: rs => do
    let band ← d.validate r bands
    d.validateAll (bands ++ [band]) rs

def findProducts (d : Directory) : List Int → Traced (List Product)
  | [] => pure []
  | id :: ids => do
    let product ← d.findProduct id
    let products ← d.findProducts ids
    return product :: products

def distinctProducts (d : Directory) (ids : List Int) : Traced (List Product) :=
  d.findProducts ids.eraseDups

/-- The criteria that is asked for; the ids that its bands come with do not count. -/
def assemble (d : Directory) (r : Request.NewCriteria) : Traced Criteria := do
  let bands ← d.validateAll [] (r.bands.map Request.BandEntry.newRequest)
  let products ← d.distinctProducts r.productIds
  Traced.check (Criteria.create (.str r.name) bands products)

def assembleProducts (d : Directory) (r : Request.Changes) : Traced (Option (List Product)) :=
  match r.products.value? with
  | none => pure none
  | some ids => do
    let products ← d.distinctProducts ids
    return some products

end Directory
end Provisioning
