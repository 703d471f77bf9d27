import Provisioning.Store.Basic

namespace Provisioning

structure Transaction (α : Type) where
  run : Store → Except Failure α × Store

namespace Transaction

def bind (x : Transaction α) (f : α → Transaction β) : Transaction β where
  run s :=
    match x.run s with
    | (.error e, t) => (.error e, t)
    | (.ok a, t) => (f a).run t

instance : Monad Transaction where
  pure a := ⟨fun s ↦ (.ok a, s)⟩
  bind := bind

def ofExcept (answer : Except Failure α) : Transaction α := ⟨fun s ↦ (answer, s)⟩

def current : Transaction Store := ⟨fun s ↦ (.ok s, s)⟩

def modify (f : Store → Store) : Transaction Unit := ⟨fun s ↦ (.ok (), f s)⟩

def commit (x : Transaction α) (s : Store) : Except Failure (α × Store) :=
  match x.run s with
  | (.ok a, t) => .ok (a, t)
  | (.error e, _) => .error e

end Transaction
end Provisioning
