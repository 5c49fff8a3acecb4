import QueryHost.Act
import QueryHost.Host.Resources
import QueryHost.Metrics
import QueryHost.Scope

/-!
# Construction

While the host is being built, its parts are put in their places and its subsystems are adopted one
after the other, and metrics are registered. What was built, adopted and registered by the time of a
failure is there to be released.
-/

namespace QueryHost

/-- What a gauge of the host measures. -/
inductive Gauge where
  | sendBatchThreads | sendBatchQueue | downloadThreads | downloadQueue | scannerQueue
  | orphanBytes
  deriving DecidableEq, Repr

structure Site where
  scene : Scene
  parts : Resources
  scope : Scope Subsystem := {}
  metrics : Metrics Gauge := {}

abbrev Construction (α : Type) := ExceptT Failure (StateM Site) α

namespace Construction

variable {α : Type}

/-- Does an action on the scene of the site. -/
def act (a : Act α) : Construction α := do
  let site ← get
  let (r, scene) := a.run.run site.scene
  set { site with scene }
  match r with
  | .ok x => return x
  | .error f => throw f

def ofExcept (e : Except Failure α) : Construction α := act (Act.ofExcept e)

def report (lines : Log) : Construction Unit := act (Act.report lines)

/-- Reports what a step says of itself, and gives its result. -/
def reporting (p : α × Log) : Construction α := do
  report p.2
  return p.1

/-- Puts parts in their places. -/
def place (f : Resources → Resources) : Construction Unit :=
  modify fun site => { site with parts := f site.parts }

def adopt (s : Subsystem) : Construction Unit := do
  modify fun site => { site with
    scope := site.scope.adopt s.name s
    scene.lives := site.scene.lives ++ [.adopted s] }
  report (Scope.adoptionLog s.name)

def gauge (name help : String) (source : Gauge) : Construction Unit := do
  let m ← ofExcept ((← get).metrics.registerGauge name help source)
  modify fun site => { site with metrics := m }

end Construction

end QueryHost
