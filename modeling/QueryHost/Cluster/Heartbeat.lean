/-!
# Heartbeat

What the coordinator tells the host with its heartbeat: flags, and who is master of the cluster. A
master that is older than the known one, by its epoch, is not accepted.
-/

namespace QueryHost

structure HeartbeatFlags where
  flags : Nat := 0
  deriving DecidableEq, Repr

namespace HeartbeatFlags

def update (_ : HeartbeatFlags) (flags : Nat) : HeartbeatFlags := ⟨flags⟩

/-- Whether new rowsets are to have the newer format: the lowest flag. -/
def betaRowsets (h : HeartbeatFlags) : Bool := h.flags % 2 = 1

end HeartbeatFlags

structure ClusterMaster where
  host : String
  port : Nat
  clusterId : Int
  epoch : Int
  token : String
  backendId : Option Int
  deriving DecidableEq, Repr

structure MasterInfo where
  master : Option ClusterMaster := none
  deriving DecidableEq, Repr

namespace MasterInfo

/-- Accepts a master unless it is older than the known one; says whether it did. -/
def update (m : MasterInfo) (next : ClusterMaster) : MasterInfo × Bool :=
  match m.master with
  | none => (⟨some next⟩, true)
  | some known => if next.epoch < known.epoch then (m, false) else (⟨some next⟩, true)

def epoch (m : MasterInfo) : Option Int := m.master.map (·.epoch)

end MasterInfo

end QueryHost
