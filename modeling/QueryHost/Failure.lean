import QueryHost.OsError

/-!
# Failures

Every operation of the host that can fail does so with a `Failure`. `Failure.message` words it, and
`Failure.escalate` marks the one that ends the process; marking twice marks once
(`escalate_escalate`).
-/

namespace QueryHost

inductive Failure where
  /-- A broken invariant, or a configured value that lacks a documented shape. -/
  | internal (reason : String)
  | invalidConfig (name reason : String)
  | subsystem (name reason : String)
  | io (context : String) (cause : IoFault)
  | notInitialized
  | alreadyDestroyed
  /-- A bounded queue is full, or what would do the work is shutting down. -/
  | unavailable (reason : String)
  | fatal (inner : Failure)
  deriving DecidableEq, Repr

namespace Failure

def message : Failure → String
  | internal reason => "internal error: " ++ reason
  | invalidConfig name reason => "invalid config " ++ name ++ ": " ++ reason
  | subsystem name reason => name ++ " init failed: " ++ reason
  | io context cause => context ++ ": " ++ cause.text
  | notInitialized => "exec env is not initialized"
  | alreadyDestroyed => "exec env has already been destroyed"
  | unavailable reason => "service unavailable: " ++ reason
  | fatal inner => "fatal: " ++ inner.message

def isFatal : Failure → Bool
  | fatal _ => true
  | _ => false

/-- Whether a broken invariant lies at the bottom. -/
def isInternal : Failure → Bool
  | internal _ => true
  | fatal inner => inner.isInternal
  | _ => false

/-- How often the failure has been marked fatal. -/
def fatalDepth : Failure → Nat
  | fatal inner => inner.fatalDepth + 1
  | _ => 0

/-- What an input or output failure was caused by. -/
def cause? : Failure → Option IoFault
  | io _ cause => some cause
  | _ => none

def escalate : Failure → Failure
  | fatal inner => fatal inner
  | other => fatal other

@[simp] theorem isFatal_escalate (f : Failure) : f.escalate.isFatal = true := by
  cases f <;> rfl

@[simp] theorem escalate_escalate (f : Failure) : f.escalate.escalate = f.escalate := by
  cases f <;> rfl

@[simp] theorem isInternal_escalate (f : Failure) : f.escalate.isInternal = f.isInternal := by
  cases f <;> rfl

end Failure

/-- What an operation gives that may have to wait until another party has done something. -/
inductive Attempt (α : Type) where
  | done (result : α)
  | mustWait
  deriving Repr

end QueryHost
