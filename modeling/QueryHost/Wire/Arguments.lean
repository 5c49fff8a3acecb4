import QueryHost.Cache.Segment
import QueryHost.Cluster.Heartbeat
import QueryHost.Cluster.StoragePolicy
import QueryHost.Memory.AllocationHook
import QueryHost.Pipeline.Script
import QueryHost.Query.Receivers
import QueryHost.Wire.Handler

/-!
# Arguments of several fields

Some arguments are spread over several fields of a request. They are read from the request as a
whole, by whatever name they are asked for.
-/

namespace QueryHost.Wire.Handler

variable {σ η : Type}

/-- Bytes are given as a text, in hexadecimal, or as a number of equal ones. -/
instance (priority := high) : Arg σ η Bytes :=
  ⟨fun _ => do
    match ← field "data", ← field "hex" with
    | some (text : String), _ => return text.toUTF8.toList
    | none, some (digits : String) => return readHex digits.toList
    | none, none => return List.replicate (← field "size") (UInt8.ofNat (← field? "fill" 7))⟩

instance : Arg σ η MemInfo := ⟨fun _ => args MemInfo.mk "mem_limit physical_mem"⟩

instance : Arg σ η HookCapability :=
  ⟨fun _ => args HookCapability.mk "sanitizer_build alternate_allocator user_enabled"⟩

instance : Arg σ η PageKey := ⟨fun _ => args PageKey.mk "fname offset"⟩
instance : Arg σ η SegmentKey := ⟨fun _ => args SegmentKey.mk "rowset segment"⟩
instance : Arg σ η ReceiverKey := ⟨fun _ => args ReceiverKey.mk "finst node"⟩
instance (priority := high) : Arg σ η Address := ⟨fun _ => args Address.mk "host port"⟩

instance : Arg σ η ClusterMaster :=
  ⟨fun _ => args ClusterMaster.mk "host port cluster_id epoch token backend_id"⟩

instance : Arg σ η StoragePolicy :=
  ⟨fun _ => args StoragePolicy.mk "name version datetime ttl resource"⟩

/-- A task has the name that it is asked for by; one that is to fail, does so with a text. -/
instance : Arg σ η NamedTask :=
  ⟨fun name => do
    let fault : Option String ← field "fail"
    return ⟨← field name, ← field? "kind" .ordinary, fault.map .internal⟩⟩

instance : Arg σ η Script := ⟨fun _ => args Script.ofLetters "name slices gate"⟩

end QueryHost.Wire.Handler
