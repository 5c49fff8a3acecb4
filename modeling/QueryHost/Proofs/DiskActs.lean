import Mathlib.Tactic.Common
import QueryHost.Host.Resources

/-!
# Actions on the disk alone

What the managers of directories and files do when the host is built is made of looking at the disk,
of changing it, of reports, and of failures that are not fatal (`Act.Plain`). So it depends on the
disk alone: whether it succeeds, what it gives, what becomes of the disk and what is reported. The
accounts stay as they are, and no subsystem is adopted or shut down (`Act.OnDisk`).
-/

namespace QueryHost

variable {σ α β : Type}

/-- One after the other: what fails is the last thing that is done. -/
theorem run_bind (a : ExceptT Failure (StateM σ) α) (f : α → ExceptT Failure (StateM σ) β) (s : σ) :
    (a >>= f).run.run s =
      match a.run.run s with
      | (.ok x, t) => (f x).run.run t
      | (.error e, t) => (.error e, t) := by
  show ExceptT.bindCont f (a.run.run s).1 (a.run.run s).2 = _
  rcases a.run.run s with ⟨e | x, t⟩ <;> rfl

@[simp] theorem Path.entry_text (p : Path) (name : String) :
    p.entry (.text name) = .text (p / name) := rfl

namespace Disk

variable (d : Disk) (p : Path)

@[simp] theorem fileSystem_isFile : FileSystem.isFile d (.text p) = d.isFile p := rfl

@[simp] theorem fileSystem_removeFile : FileSystem.removeFile d (.text p) = d.removeFile p := rfl

@[simp] theorem fileSystem_makeDirectories :
    FileSystem.makeDirectories d p = d.makeDirectories p := rfl

end Disk

namespace Act

variable {δ : Type}

theorem run_disk_bind (f : δ → ActOn δ β) (s : SceneOn δ) :
    (disk >>= f).run.run s = (f s.disk).run.run s := rfl

theorem run_setDisk_bind (d : δ) (f : Unit → ActOn δ β) (s : SceneOn δ) :
    (setDisk d >>= f).run.run s = (f ()).run.run { s with disk := d } := rfl

theorem run_report_bind (lines : Log) (f : Unit → ActOn δ β) (s : SceneOn δ) :
    (report lines >>= f).run.run s = (f ()).run.run { s with log := s.log ++ lines } := rfl

theorem run_change (context : String) (f : δ → Except IoFault δ) (s : SceneOn δ) :
    (change context f).run.run s = match f s.disk with
      | .ok d => (.ok (), { s with disk := d })
      | .error e => (.error (.io context e), s) := by
  rw [change, run_disk_bind]
  cases f s.disk <;> rfl

theorem run_attempt (f : δ → δ × Except IoFault Unit) (s : SceneOn δ) :
    (attempt f).run.run s = (.ok (f s.disk).2, { s with disk := (f s.disk).1 }) := rfl

theorem run_makeDirectories [FileSystem δ] (context : String) (p : Path) (s : SceneOn δ) :
    (makeDirectories context p).run.run s
      = ((FileSystem.makeDirectories s.disk p).2.mapError (.io context),
        { s with disk := (FileSystem.makeDirectories s.disk p).1 }) := by
  rw [makeDirectories, run_bind, run_attempt]
  simp only []
  cases (FileSystem.makeDirectories s.disk p).2 <;> rfl

/-- What the action gives, makes of the disk and reports depends on the disk alone. -/
def OnDisk (a : Act α) : Prop :=
  ∀ d, ∃ (r : Except Failure α) (d' : Disk) (lines : Log), ∀ s : Scene, s.disk = d →
    a.run.run s = (r, { s with disk := d', log := s.log ++ lines })

namespace OnDisk

theorem bind {a : Act α} {f : α → Act β} (ha : OnDisk a) (hf : ∀ x, OnDisk (f x)) :
    OnDisk (a >>= f) := by
  intro d
  obtain ⟨r, d', lines, hrun⟩ := ha d
  cases r with
  | error e =>
    refine ⟨.error e, d', lines, fun s hs => ?_⟩
    rw [run_bind, hrun s hs]
  | ok x =>
    obtain ⟨r', d'', lines', hrun'⟩ := hf x d'
    refine ⟨r', d'', lines ++ lines', fun s hs => ?_⟩
    rw [run_bind, hrun s hs]
    simp only []
    rw [hrun' _ rfl, List.append_assoc]

/-- An action that reports nothing. -/
theorem of_run {a : Act α} (r : Disk → Except Failure α) (g : Disk → Disk)
    (h : ∀ s : Scene, a.run.run s = (r s.disk, { s with disk := g s.disk })) : OnDisk a := by
  refine fun d => ⟨r d, g d, [], fun s hs => ?_⟩
  rw [h s, hs, List.append_nil]

theorem pure (x : α) : OnDisk (Pure.pure x : Act α) :=
  of_run (fun _ => .ok x) id fun _ => rfl

theorem fail (f : Failure) : OnDisk (Act.fail f : Act α) :=
  of_run (fun _ => .error f) id fun _ => rfl

theorem ofExcept (e : Except Failure α) : OnDisk (Act.ofExcept e) := by
  cases e with
  | ok x => exact .pure x
  | error f => exact .fail f

theorem report (lines : Log) : OnDisk (Act.report lines) :=
  fun d => ⟨.ok (), d, lines, fun s hs => by rw [← hs]; rfl⟩

theorem disk : OnDisk Act.disk := of_run .ok id fun _ => rfl

theorem setDisk (d : Disk) : OnDisk (Act.setDisk d) :=
  of_run (fun _ => .ok ()) (fun _ => d) fun _ => rfl

end OnDisk

/-- The action is made of what a manager of directories and files does. -/
inductive Plain : ∀ {α : Type}, Act α → Prop
  | pure {α : Type} (x : α) : Plain (Pure.pure x : Act α)
  | fail {α : Type} {f : Failure} (h : f.isFatal = false) : Plain (Act.fail f : Act α)
  | report (lines : Log) : Plain (Act.report lines)
  | disk : Plain Act.disk
  | setDisk (d : Disk) : Plain (Act.setDisk d)
  | bind {α β : Type} {a : Act α} {f : α → Act β} : Plain a → (∀ x, Plain (f x)) → Plain (a >>= f)

namespace Plain

theorem onDisk {a : Act α} (h : Plain a) : OnDisk a := by
  induction h with
  | pure x => exact .pure x
  | fail => exact .fail _
  | report lines => exact .report lines
  | disk => exact .disk
  | setDisk d => exact .setDisk d
  | bind _ _ ha hf => exact ha.bind hf

theorem info (m : String) : Plain (Act.info m) := report _

theorem warn (m : String) : Plain (Act.warn m) := report _

theorem change (context : String) (f : Disk → Except IoFault Disk) :
    Plain (Act.change context f) := by
  refine disk.bind fun d => ?_
  split
  · exact setDisk _
  · exact fail rfl

theorem attempt (f : Disk → Disk × Except IoFault Unit) : Plain (Act.attempt f) :=
  disk.bind fun _ => (setDisk _).bind fun _ => pure _

theorem makeDirectories (context : String) (p : Path) : Plain (Act.makeDirectories context p) := by
  refine (attempt _).bind fun r => ?_
  split
  · exact pure _
  · exact fail rfl

theorem forM {f : α → Act Unit} (hf : ∀ x, Plain (f x)) : ∀ l : List α, Plain (l.forM f)
  | [] => pure ()
  | x :: l => (hf x).bind fun _ => forM hf l

end Plain

end Act

open Act (OnDisk Plain)

/-! ## The managers -/

theorem LoadPaths.plain_init (l : LoadPaths) : Plain l.init :=
  (Plain.forM (fun _ => .makeDirectories _ _) _).bind fun _ => .info _

theorem LoadPaths.onDisk_init (l : LoadPaths) : OnDisk l.init := l.plain_init.onDisk

theorem Cgroups.plain_init (c : Cgroups) : Plain c.init := by
  refine Plain.disk.bind fun d => ?_
  split
  · exact (Plain.info _).bind fun _ => .pure _
  · split
    · exact (Plain.warn _).bind fun _ => .pure _
    · split
      · exact (Plain.warn _).bind fun _ => .pure _
      · exact (Plain.info _).bind fun _ => .pure _

theorem Cgroups.onDisk_init (c : Cgroups) : OnDisk c.init := c.plain_init.onDisk

namespace SmallFiles

theorem plain_load (hash : Bytes → String) : ∀ (names : List EntryName) (s : SmallFiles),
    Plain (load hash s names)
  | [], s => .pure s
  | name :: rest, s => by
    refine Plain.disk.bind fun d => ?_
    split
    · exact plain_load hash rest s
    · split
      · exact plain_load hash rest _
      · refine (Plain.warn _).bind fun _ => ?_
        split
        · exact (Plain.setDisk _).bind fun _ => plain_load hash rest s
        · exact plain_load hash rest s

theorem plain_init (hash : Bytes → String) (s : SmallFiles) : Plain (init hash s) := by
  refine (Plain.makeDirectories _ _).bind fun _ => Plain.disk.bind fun d => ?_
  split
  · exact .fail rfl
  · exact (plain_load hash _ s).bind fun _ => (Plain.info _).bind fun _ => .pure _

theorem onDisk_init (hash : Bytes → String) (s : SmallFiles) : OnDisk (init hash s) :=
  (plain_init hash s).onDisk

end SmallFiles

namespace TmpFiles

theorem plain_resetAll : ∀ stores : List Path, Plain (resetAll stores)
  | [] => .pure []
  | store :: rest => by
    refine (Plain.attempt _).bind fun r => ?_
    split
    · exact (plain_resetAll rest).bind fun _ => .pure _
    · exact (Plain.warn _).bind fun _ => plain_resetAll rest

theorem plain_init (t : TmpFiles) : Plain t.init := by
  have hrest : ∀ usable : List Path, Plain (do
      Act.info ("using " ++ toString usable.length ++ " tmp directories")
      return { t with directories := usable }) := fun usable =>
    (Plain.info _).bind fun _ => .pure _
  refine (plain_resetAll _).bind fun usable => ?_
  split
  · exact (Plain.fail rfl).bind fun _ => hrest usable
  · exact hrest usable

theorem onDisk_init (t : TmpFiles) : OnDisk t.init := t.plain_init.onDisk

end TmpFiles

namespace Spill

theorem plain_moveEntries (source target : Path) : ∀ names : List String,
    Plain (moveEntries source target names)
  | [] => .pure 0
  | _ :: rest => (Plain.change _ _).bind fun _ =>
      (plain_moveEntries source target rest).bind fun _ => .pure _

theorem plain_moveChildren (source target : Path) : Plain (moveChildren source target) := by
  refine Plain.disk.bind fun d => ?_
  split
  · exact plain_moveEntries source target _
  · exact .fail rfl

theorem plain_moveAside : ∀ stores : List Path, Plain (moveAside stores)
  | [] => .pure 0
  | store :: rest => by
    have hrest : ∀ moved : Nat, Plain (do
        ensure (spillIn store)
        return moved + (← moveAside rest)) := fun moved =>
      (Plain.makeDirectories _ _).bind fun _ => (plain_moveAside rest).bind fun _ => .pure _
    refine (Plain.makeDirectories _ _).bind fun _ => Plain.disk.bind fun d => ?_
    split
    · exact (plain_moveChildren _ _).bind hrest
    · exact (Plain.pure 0).bind hrest

theorem plain_discard (directory : Path) : ∀ names : List String,
    Plain (discard directory names)
  | [] => .pure 0
  | name :: rest => by
    refine Plain.disk.bind fun d => ?_
    split
    · exact (Plain.setDisk _).bind fun _ => (plain_discard directory rest).bind fun _ => .pure _
    · exact (Plain.warn _).bind fun _ => plain_discard directory rest

theorem plain_collectIn : ∀ stores : List Path, Plain (collectIn stores)
  | [] => .pure 0
  | store :: rest => by
    have hrest : ∀ removed : Nat, Plain (do return removed + (← collectIn rest)) := fun _ =>
      (plain_collectIn rest).bind fun _ => .pure _
    refine Plain.disk.bind fun d => ?_
    split
    · exact (plain_discard _ _).bind hrest
    · exact (Plain.pure 0).bind hrest

theorem plain_init (s : Spill) : Plain s.init := by
  have hrest : Plain (do let _ ← s.collect) := (plain_collectIn _).bind fun _ => .pure _
  refine (plain_moveAside _).bind fun moved => ?_
  split
  · exact (Plain.info _).bind fun _ => hrest
  · exact hrest

theorem onDisk_init (s : Spill) : OnDisk s.init := s.plain_init.onDisk

end Spill

end QueryHost
