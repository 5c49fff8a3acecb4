import QueryHost.Failure
import QueryHost.Log
import QueryHost.Text.Digits

/-!
# Brokers

The host's identity towards brokers, fixed once, and the set of brokers that it knows.
-/

namespace QueryHost

/-- Where a service listens. -/
structure Address where
  host : String
  port : Nat
  deriving DecidableEq, Repr, Inhabited

namespace Address

def text (a : Address) : String := a.host ++ ":" ++ toString a.port

/-- By host, then by port. -/
def le (a b : Address) : Bool :=
  decide (a.host < b.host) || (a.host == b.host && a.port ≤ b.port)

end Address

structure Brokers where
  clientId : Option String := none
  /-- The known brokers, in order and each once. -/
  addresses : List Address := []
  deriving DecidableEq, Repr

namespace Brokers

/-- Fixes the client id from the host's name and the process. The first one stays. -/
def init (b : Brokers) (hostname : Option String) (process : Nat) : Brokers × Log :=
  let host := match hostname.filter fun h => !(trim h.toList).isEmpty with
    | some h => h
    | none => "localhost"
  let id := host ++ ":" ++ toString process
  ({ b with clientId := b.clientId <|> some id }, [.info ("broker manager client id: " ++ id)])

def getClientId (b : Brokers) : Except Failure String :=
  match b.clientId with
  | some id => .ok id
  | none => .error .notInitialized

def update (b : Brokers) (addresses : List Address) : Brokers :=
  { b with addresses := (addresses.eraseDups).mergeSort Address.le }

end Brokers

end QueryHost
