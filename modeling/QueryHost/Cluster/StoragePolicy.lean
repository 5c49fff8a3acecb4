import QueryHost.Assoc

/-!
# Storage policies

Policies by name, each with a version. A policy is replaced by a newer version only.
-/

namespace QueryHost

structure StoragePolicy where
  name : String
  version : Int
  cooldownDatetime : Option Int
  cooldownTtl : Option Int
  resource : String
  deriving DecidableEq, Repr

structure StoragePolicies where
  policies : Assoc String StoragePolicy := {}
  deriving Repr

namespace StoragePolicies

def put (s : StoragePolicies) (p : StoragePolicy) : StoragePolicies × Bool :=
  match s.policies.get? p.name with
  | none => (⟨s.policies.put p.name p⟩, true)
  | some known =>
    if p.version ≤ known.version then (s, false) else (⟨s.policies.put p.name p⟩, true)

def get? (s : StoragePolicies) (name : String) : Option StoragePolicy := s.policies.get? name

def erase (s : StoragePolicies) (name : String) : StoragePolicies × Bool :=
  (⟨s.policies.erase name⟩, s.policies.contains name)

end StoragePolicies

end QueryHost
