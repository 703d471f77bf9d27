import Provisioning.Value.Basic

namespace Provisioning

structure ChangeSet where
  changes : Value.Fields

namespace ChangeSet

def empty : ChangeSet := ⟨[]⟩

def isEmpty (c : ChangeSet) : Bool := c.changes.isEmpty

def get? (c : ChangeSet) (field : String) : Option Value := c.changes.get? field

def fields (c : ChangeSet) : List String := c.changes.keys.mergeSort

def merge (c d : ChangeSet) : ChangeSet := ⟨c.changes.merge d.changes⟩

end ChangeSet
end Provisioning
