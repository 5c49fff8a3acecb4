import QueryHost.Act
import QueryHost.Machine.Facts
import QueryHost.Storage.SmallFiles
import QueryHost.Wire.Handler

/-!
# Handling requests on a scene

Handlers that act on a part of the host and on the scene that it shares with the others. What is
logged on the scene while a request is handled is reported with its answer.
-/

namespace QueryHost.Wire

instance : Encode SmallFile := ⟨fun f => row (f.path, f.digest)⟩

namespace Handler

variable {χ η α : Type}

abbrev Onsite (χ η α : Type) := Handler (χ × Scene) η α

def part : Onsite χ η χ := return (← state).1

def disk : Onsite χ η Disk := return (← state).2.disk

def alterPart (f : χ → χ) : Onsite χ η Unit := alter fun s => (f s.1, s.2)

/-- Does an action on the scene. -/
def perform (a : Act α) : Onsite χ η (Except Failure α) := onBench fun b =>
  let (r, scene) := a.run.run b.state.2
  (b.alter fun s => (s.1, scene), r)

/-- Answers with the result of an action. -/
def doing [Encode (Except Failure α)] (a : Act α) : Onsite χ η Value :=
  return encode (← perform a)

/-- Does an action that gives the part anew; what there is beside it is the answer. -/
def become [Encode (Except Failure α)] (a : Act (χ × α)) : Onsite χ η Value := do
  let r ← perform a
  if let .ok (x, _) := r then alterPart fun _ => x
  return encode (r.map (·.2))

/-- Changes the disk, and answers whether that could be done. -/
def onDisk (f : Disk → Disk × Bool) : Onsite χ η Value := onBench fun b =>
  let (d, done) := f b.state.2.disk
  (b.alter fun s => (s.1, { s.2 with disk := d }), .flag done)

/-- Reports what has been logged on the scene once the request is handled. -/
def airing (h : Onsite χ η Value) : Onsite χ η Value := do
  let answer ← settled h
  say (← state).2.log
  alter fun s => (s.1, { s.2 with log := [] })
  return answer

end Handler

end QueryHost.Wire
