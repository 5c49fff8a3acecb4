import QueryHost.Assoc
import QueryHost.UniqueId

/-!
# Scan contexts

The contexts of external scans, by the text of the id that each gets when it is made. A handle on a
context outlives its registration.
-/

namespace QueryHost

abbrev ScanContextId := Nat

structure ScanContext where
  contextId : String
  fragment : Option UniqueId := none
  deriving DecidableEq, Repr

structure ScanContexts where
  all : List ScanContext := []
  registered : Assoc String ScanContextId := {}
  deriving Repr

namespace ScanContexts

/-- Makes a context under an id that the host has just generated. -/
def create (s : ScanContexts) (generated : UniqueId) : ScanContexts × ScanContextId :=
  let id := s.all.length
  (⟨s.all ++ [{ contextId := generated.text }], s.registered.put generated.text id⟩, id)

def context? (s : ScanContexts) (id : ScanContextId) : Option ScanContext := s.all[id]?

def get? (s : ScanContexts) (contextId : String) : Option ScanContextId :=
  s.registered.get? contextId

def bindFragment (s : ScanContexts) (id : ScanContextId) (fragment : UniqueId) : ScanContexts :=
  { s with all := s.all.modify id fun x => { x with fragment := some fragment } }

def clear (s : ScanContexts) (contextId : String) : ScanContexts × Bool :=
  ({ s with registered := s.registered.erase contextId }, s.registered.contains contextId)

def size (s : ScanContexts) : Nat := s.registered.size

def shutdown (s : ScanContexts) : ScanContexts := { s with registered := {} }

end ScanContexts

end QueryHost
