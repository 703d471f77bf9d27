import Provisioning.Assembly
import Provisioning.Store.Basic

namespace Provisioning

def Criteria.applyEntry (d : Directory) (c : Criteria) (r : BandRequest) :
    Except Failure (Criteria × Bool) := do
  let category ← d.category r.categoryId
  let liability ← d.account r.liability
  let expense ← d.account r.expense
  (c.apply r category liability expense false).mapError .ofError

/-- Applies the requested bands one after the other and lists the ids of those that made a
difference. -/
def Criteria.applyAll (d : Directory) (c : Criteria) :
    List BandRequest → Except Failure (Criteria × List (Option Int))
  | [] => .ok (c, [])
  | r :: rs => do
    let (c, changed) ← c.applyEntry d r
    let (c, written) ← c.applyAll d rs
    return (c, if changed then r.id :: written else written)

/-- Applies the requested bands, then checks that the bands of the result share no day. -/
def Criteria.withBands (d : Directory) (c : Criteria) (rs : List BandRequest) :
    Except Failure (Criteria × ChangeSet) := do
  let (c, written) ← c.applyAll d rs
  if written.isEmpty then return (c, .empty)
  c.checkBands.mapError .problem
  return (c, ⟨[("definitions", .list (written.map (Value.optional .int)))]⟩)

/-- The criteria with the requested changes, and what they are. -/
def Store.revise (s : Store) (id : Int) (r : Request.Changes) :
    Except Failure (Criteria × ChangeSet) := do
  let stored ← s.get id
  let products ← (s.directory.assembleProducts r).answer
  let name := Value.optional .str r.name.value?
  let (c, head) ← (stored.update name products).mapError .problem
  let entries := (r.bands.value?.getD []).map Request.BandEntry.request
  let (c, bands) ← c.withBands s.directory entries
  return (c, head.merge bands)

end Provisioning
