import Provisioning.Store.Transaction

namespace Provisioning

namespace Double

/-- The value in whole millionths, a tie to the even one. -/
def millionths (mantissa : Nat) (exponent : Int) : Nat :=
  let (n, d) := scaleByTwo (mantissa * 1000000) 1 exponent
  roundDiv n d

end Double

/-- A percentage is stored as a double and read back with six places; a NaN is not stored. -/
def Decimal.stored? : Decimal → Option Decimal
  | nan .. => none
  | infinite neg => some (infinite neg)
  | finite neg c e =>
    match Double.ofScientific neg c e with
    | .finite neg m x => some (finite (neg && m != 0) (Double.millionths m x) (-6))
    | .infinite neg => some (infinite neg)
    | .nan => none

structure Snapshot where
  id : Option Int
  name : Option String
  bands : List Band
  productIds : List Int
  deriving DecidableEq, Repr

def Criteria.snapshot (c : Criteria) : Snapshot :=
  ⟨c.id, some c.name, c.bands, c.products.map Product.id⟩

structure Draft where
  band : Band
  categoryId : Option Int
  deriving DecidableEq, Repr

namespace Draft

def fits (d : Draft) : Bool :=
  inWord d.band.minAge && inWord d.band.maxAge && inWord d.band.liability.id
    && inWord d.band.expense.id

def row (d : Draft) (id criteriaId : Int) : Except TableRule BandRow :=
  match d.categoryId, d.band.percentage.stored? with
  | none, _ => .error (.notNull (.ofBand "category_id"))
  | some _, none => .error (.notNull (.ofBand "provision_percentage"))
  | some categoryId, some percentage => .ok {
      id
      criteriaId
      categoryId
      minAge := d.band.minAge
      maxAge := d.band.maxAge
      percentage
      liability := d.band.liability
      expense := d.band.expense }

def rows (criteriaId : Int) : Int → List Draft → Except TableRule (List BandRow)
  | _, [] => .ok []
  | id, d :: drafts => do
    let r ← d.row id criteriaId
    return r :: (← rows criteriaId (id + 1) drafts)

end Draft

namespace Store

def refuse (rule : TableRule) : Failure := .violation (.ofRule rule)

def draft (s : Store) (own : List Int) (b : Band) : Except Failure Draft := do
  match b.id with
  | some id => if !own.contains id then throw (.unknown .band id)
  | none => pure ()
  let category ← findRow Category.id s.categories b.categoryId
  return ⟨b, category.map Category.id⟩

def hasAccounts (s : Store) (r : BandRow) : Bool :=
  !s.foreignKeys || [r.liability.id, r.expense.id].all fun id ↦ s.accounts.any fun a ↦ a.id == id

def updateBand (s : Store) (d : Draft) (r : BandRow) : Except Failure BandRow := do
  if !d.fits then throw .tooLarge
  let r ← (d.row r.id r.criteriaId).mapError refuse
  if s.hasAccounts r then return r else throw (refuse .foreignKey)

/-- The rows of other criteria as they are, and those of this one as the drafts say. Of drafts for one
row the last counts, and a row without draft is removed. -/
def updateBands (s : Store) (criteriaId : Int) (drafts : List Draft) :
    List BandRow → Except Failure (List BandRow)
  | [] => .ok []
  | r :: rows =>
    if r.criteriaId = criteriaId then
      match drafts.reverse.find? fun d ↦ d.band.id == some r.id with
      | none => s.updateBands criteriaId drafts rows
      | some d => do
        let r ← s.updateBand d r
        return r :: (← s.updateBands criteriaId drafts rows)
    else do
      return r :: (← s.updateBands criteriaId drafts rows)

def newBands (s : Store) (criteriaId : Int) (drafts : List Draft) :
    Except Failure (List BandRow) := do
  if !drafts.all Draft.fits then throw .tooLarge
  let rows ← (Draft.rows criteriaId (nextId (s.bands.map BandRow.id)) drafts).mapError refuse
  if rows.all s.hasAccounts then return rows else throw (refuse .foreignKey)

def header (s : Store) (c : Snapshot) : Except Failure Header :=
  let id := c.id.getD (nextId (s.headers.map Header.id))
  match c.name with
  | none => .error (refuse (.notNull (.ofCriteria "criteria_name")))
  | some name =>
    if s.headers.any fun h ↦ h.id != id && h.name == name then
      .error (refuse (.unique [.ofCriteria "criteria_name"]))
    else .ok ⟨id, name⟩

/-- Of the linked products those that are not wanted lose their link. A product has one link at
most. -/
def relink (s : Store) (id : Int) (linked wanted added : List Int) : Except Failure (List Link) :=
  let kept := s.links.filter fun l ↦
    l.criteriaId != id || wanted.contains l.productId || !linked.contains l.productId
  if added.any fun n ↦ kept.any fun l ↦ l.productId == n then
    .error (refuse (.unique [.ofLink "product_id"]))
  else .ok (kept ++ added.map fun n ↦ ⟨id, n⟩)

def current (s : Store) : Option Int → Except Failure (List Int × List Int)
  | none => .ok ([], [])
  | some id => do
    let h ← getRow Header.id s.headers .criteria id
    return ((s.bandsOf h.id).map BandRow.id, (s.productsOf h.id).map Product.id)

/-- Writes a snapshot and gives the header that it has now. -/
def write (c : Snapshot) : Transaction Header := do
  let s ← Transaction.current
  let (own, linked) ← .ofExcept (s.current c.id)
  let drafts ← .ofExcept (c.bands.mapM (s.draft own))
  let added := ascending (c.productIds.filter fun n ↦ !linked.contains n)
  let _ ← .ofExcept (added.mapM s.product)
  let h ← .ofExcept (s.header c)
  Transaction.modify fun t ↦ { t with headers := putRow Header.id h t.headers }
  let kept ← .ofExcept (s.updateBands h.id drafts s.bands)
  let new ← .ofExcept (s.newBands h.id (drafts.filter fun d ↦ d.band.id.isNone))
  Transaction.modify fun t ↦ { t with bands := kept ++ new }
  let links ← .ofExcept (s.relink h.id linked c.productIds added)
  Transaction.modify fun t ↦ { t with links }
  return h

def save (s : Store) (c : Snapshot) : Except Failure (Criteria × Store) :=
  Transaction.commit (do
    let h ← write c
    let t ← Transaction.current
    .ofExcept (t.read h)) s

end Store
end Provisioning
