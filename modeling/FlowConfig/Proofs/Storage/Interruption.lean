import FlowConfig.Proofs.Storage.Replacing
import FlowConfig.Storage.Store

/-!
# Interrupted disks

A disk may refuse an operation for reasons that the paths do not show: it is full,
or a device fails.  Directories may then have been made in part, and a temporary
file filled in part; moving a file happens as a whole or not at all.  Storing a
configuration on such a disk replaces one file or none.
-/

namespace FlowConfig
namespace Storage

/-- An operation is refused after some progress. -/
structure Interruption where
  fault : SystemFault
  progress : Nat

/-- A file system, and for each of the operations to come whether it is
interrupted; those after the end of the list are not. -/
structure Machine where
  files : FileSystem
  interruptions : List (Option Interruption)

namespace Machine

variable {A B : Type}

/-- An operation that has a part of its effect when it is interrupted. -/
def attempt (part : Nat -> FileSystem -> FileSystem)
    (whole : StateM FileSystem (Except SystemFault A)) : StateM Machine (Except SystemFault A) :=
  fun s =>
    match s.interruptions.head?.join with
    | some i => (.error i.fault, ⟨part i.progress s.files, s.interruptions.tail⟩)
    | none => ((whole s.files).1, ⟨(whole s.files).2, s.interruptions.tail⟩)

def disk : Disk (StateM Machine) where
  fetch p := attempt (fun _ fs => fs) (FileSystem.disk.fetch p)
  makeDirectories p := attempt (fun n fs => (fs.makeDirectories (p.names.take n)).1)
    (FileSystem.disk.makeDirectories p)
  makeTemporary directory := attempt (fun _ fs => fs) (FileSystem.disk.makeTemporary directory)
  fillTemporary t content := attempt (fun n fs => fs.fillTemporary t (content.take n))
    (FileSystem.disk.fillTemporary t content)
  persist t p := attempt (fun _ fs => fs) (FileSystem.disk.persist t p)
  discard t := fun s => ((), ⟨s.files.discard t, s.interruptions⟩)

/-!
# Without interruptions

When nothing is interrupted any more, the machine is the file system that is
passed along.
-/

def Follows (action : StateM Machine A) (plain : StateM FileSystem A) : Prop :=
  forall fs, action ⟨fs, []⟩ = ((plain fs).1, ⟨(plain fs).2, []⟩)

theorem follows_bind {action : StateM Machine A} {next : A -> StateM Machine B}
    {plain : StateM FileSystem A} {more : A -> StateM FileSystem B} (h : Follows action plain)
    (hnext : forall a, Follows (next a) (more a)) : Follows (action >>= next) (plain >>= more) := by
  intro fs
  show next (action ⟨fs, []⟩).1 (action ⟨fs, []⟩).2 = _
  rw [h fs]
  exact hnext (plain fs).1 (plain fs).2

theorem follows_fillAndPersist (p : Path) (content : Bytes) (t : Temporary) :
    Follows (fillAndPersist disk p content t) (fillAndPersist FileSystem.disk p content t) := by
  refine follows_bind (fun _ => rfl) ?_
  intro filled
  cases filled with
  | error cause => exact follows_bind (fun _ => rfl) fun _ _ => rfl
  | ok _ =>
      refine follows_bind (fun _ => rfl) ?_
      intro persisted
      cases persisted with
      | error cause => exact follows_bind (fun _ => rfl) fun _ _ => rfl
      | ok _ => exact fun _ => rfl

theorem follows_write (p : Path) (configuration : Bytes) (level : UInt32) :
    Follows (write disk p configuration level) (write FileSystem.disk p configuration level) := by
  refine follows_bind (fun _ => rfl) ?_
  intro made
  cases made with
  | error cause => exact fun _ => rfl
  | ok _ =>
      refine follows_bind (fun _ => rfl) ?_
      intro temporary
      cases temporary with
      | error cause => exact fun _ => rfl
      | ok t => exact follows_fillAndPersist p _ t

/-!
# What an action leaves

Nothing is said of the interruptions that are left, so what follows an action is
considered with any.
-/

def Leaves (action : StateM Machine A) (s : Machine) (P : A -> FileSystem -> Prop) : Prop :=
  P (action s).1 (action s).2.files

theorem leaves_pure {s : Machine} {P : A -> FileSystem -> Prop} {a : A} (h : P a s.files) :
    Leaves (pure a) s P :=
  h

theorem leaves_bind {action : StateM Machine A} {next : A -> StateM Machine B} {s : Machine}
    {P : A -> FileSystem -> Prop} {Q : B -> FileSystem -> Prop} (h : Leaves action s P)
    (hnext : forall a (t : Machine), P a t.files -> Leaves (next a) t Q) :
    Leaves (action >>= next) s Q :=
  hnext (action s).1 (action s).2 h

theorem leaves_attempt {part : Nat -> FileSystem -> FileSystem}
    {whole : StateM FileSystem (Except SystemFault A)} {s : Machine}
    {P : Except SystemFault A -> FileSystem -> Prop}
    (hpart : forall fault n, P (.error fault) (part n s.files))
    (hwhole : P (whole s.files).1 (whole s.files).2) : Leaves (attempt part whole) s P := by
  rw [Leaves, attempt]
  cases s.interruptions.head?.join with
  | none => exact hwhole
  | some i => exact hpart i.fault i.progress

/-!
# Operations
-/

open FileSystem (OnlyAddsDirectories KeepsDirectories HoldsTemporary PutsFile)

theorem leaves_makeDirectories (s : Machine) (p : Path) :
    Leaves (disk.makeDirectories p) s fun _ fs => OnlyAddsDirectories s.files fs := by
  show Leaves (attempt (fun n fs => (fs.makeDirectories (p.names.take n)).1)
    (FileSystem.disk.makeDirectories p)) s _
  apply leaves_attempt
  · intro fault n
    exact s.files.onlyAddsDirectories_makeDirectories (p.names.take n)
  · exact s.files.onlyAddsDirectories_makeDirectories p.names

/-- A temporary file is added, or nothing. -/
def TemporaryAnswer (before : FileSystem) (answer : Except SystemFault Temporary)
    (after : FileSystem) : Prop :=
  match answer with
  | .error _ => after = before
  | .ok t => HoldsTemporary before t [] after

theorem leaves_makeTemporary (s : Machine) (directory : Path) :
    Leaves (disk.makeTemporary directory) s (TemporaryAnswer s.files) := by
  apply leaves_attempt
  · intro fault n
    rfl
  · show TemporaryAnswer s.files (s.files.makeTemporary directory).2
      (s.files.makeTemporary directory).1
    cases hmake : s.files.makeTemporary directory with
    | mk after answer =>
        cases answer with
        | error fault => exact FileSystem.eq_of_makeTemporary_error hmake
        | ok t => exact FileSystem.holdsTemporary_makeTemporary hmake

section

variable {before : FileSystem} {t : Temporary} {s : Machine}

theorem leaves_fillTemporary {old : Bytes} (h : HoldsTemporary before t old s.files)
    (content : Bytes) :
    Leaves (disk.fillTemporary t content) s fun answer fs =>
      exists written, HoldsTemporary before t written fs ∧
        (answer = .ok () -> written = content) := by
  show Leaves (attempt (fun n fs => fs.fillTemporary t (content.take n))
    (FileSystem.disk.fillTemporary t content)) s _
  apply leaves_attempt
  · intro fault n
    exact ⟨content.take n, FileSystem.holdsTemporary_fillTemporary h _, nofun⟩
  · exact ⟨content, FileSystem.holdsTemporary_fillTemporary h content, fun _ => rfl⟩

/-- The answer tells whether a file was put where the path leads, or everything is
as required of a failure. -/
def StoredOr (failed : FileSystem -> Prop) (before : FileSystem) (p : Path) (content : Bytes)
    {E : Type} (answer : Except E Unit) (after : FileSystem) : Prop :=
  match answer with
  | .error _ => failed after
  | .ok () => exists l, after.denotes? p = some l ∧ before.isDirectory l = false ∧
      PutsFile before l content after

theorem leaves_persist {content : Bytes} (h : HoldsTemporary before t content s.files) (p : Path) :
    Leaves (disk.persist t p) s
      (StoredOr (HoldsTemporary before t content) before p content) := by
  apply leaves_attempt
  · intro fault n
    exact h
  · show StoredOr _ before p content (s.files.persist t p).2 (s.files.persist t p).1
    cases hpersist : s.files.persist t p with
    | mk after answer =>
        cases answer with
        | error fault =>
            rw [FileSystem.eq_of_persist_error hpersist]
            exact h
        | ok _ => exact FileSystem.exists_putsFile_of_persist h hpersist

theorem leaves_discard {content : Bytes} (h : HoldsTemporary before t content s.files) :
    Leaves (disk.discard t) s fun _ fs => forall l, fs.item? l = before.item? l :=
  FileSystem.item?_discard h

/-- A file is put where the path leads, or every item is as before the temporary
file was made. -/
theorem leaves_fillAndPersist (h : HoldsTemporary before t [] s.files) (p : Path)
    (content : Bytes) :
    Leaves (fillAndPersist disk p content t) s
      (StoredOr (fun fs => forall l, fs.item? l = before.item? l) before p content) := by
  refine leaves_bind (leaves_fillTemporary h content) ?_
  rintro filled s1 ⟨written, hwritten, hall⟩
  cases filled with
  | error cause =>
      refine leaves_bind (leaves_discard hwritten) ?_
      intro _ s2 hsame
      exact leaves_pure hsame
  | ok _ =>
      cases hall rfl
      refine leaves_bind (leaves_persist hwritten p) ?_
      intro persisted s2 hpersisted
      cases persisted with
      | error cause =>
          refine leaves_bind (leaves_discard hpersisted) ?_
          intro _ s3 hsame
          exact leaves_pure hsame
      | ok _ => exact leaves_pure hpersisted

end

/-!
# Storing
-/

/-- What storing leaves: no directory is lost, and the regular files are those
before, except for the one that the path means if storing succeeded. -/
structure Stores (before : FileSystem) (p : Path) (content : Bytes) (answer : Except Fault Unit)
    (after : FileSystem) : Prop where
  keeps : KeepsDirectories before after
  failed : forall fault, answer = .error fault -> forall l, after.file? l = before.file? l
  stored : answer = .ok () -> exists l, after.denotes? p = some l ∧
    forall other, after.file? other = if other = l then some content else before.file? other

theorem stores_of_only_directories {before after : FileSystem} {p : Path} {content : Bytes}
    {fault : Fault} (h : OnlyAddsDirectories before after) :
    Stores before p content (.error fault) after :=
  ⟨h.keeps, fun _ _ => h.file?_eq, nofun⟩

def packed (configuration : Bytes) (level : UInt32) : Bytes :=
  Gzip.compress (StorageSettings.clampLevel level).toNat configuration

theorem stores_of_storedOr {before made after : FileSystem} {p : Path} {content : Bytes}
    {answer : Except Fault Unit} (hmade : OnlyAddsDirectories before made)
    (h : StoredOr (fun fs => forall l, fs.item? l = made.item? l) made p content answer after) :
    Stores before p content answer after := by
  cases answer with
  | error fault =>
      apply stores_of_only_directories
      apply hmade.trans
      refine ⟨?_, fun l => FileSystem.file?_congr (h l)⟩
      intro l hl
      rw [FileSystem.isDirectory, h l]
      exact hl
  | ok _ =>
      rcases h with ⟨l, hdenotes, hfree, hputs⟩
      refine ⟨?_, ?_, ?_⟩
      · intro place hplace
        exact hputs.keepsDirectories hfree place (hmade.keeps place hplace)
      · intro fault hfault
        cases hfault
      · intro _
        refine ⟨l, hdenotes, ?_⟩
        intro other
        rw [hputs.file?_eq, hmade.file?_eq]

theorem leaves_write (s : Machine) (p : Path) (configuration : Bytes) (level : UInt32) :
    Leaves (write disk p configuration level) s
      (Stores s.files p (packed configuration level)) := by
  refine leaves_bind (leaves_makeDirectories s p.directory) ?_
  intro made s1 hmade
  cases made with
  | error cause => exact leaves_pure (stores_of_only_directories hmade)
  | ok _ =>
      refine leaves_bind (leaves_makeTemporary s1 p.directory) ?_
      intro temporary s2 htemporary
      cases temporary with
      | error cause =>
          have hsame : s2.files = s1.files := htemporary
          apply leaves_pure
          rw [hsame]
          exact stores_of_only_directories hmade
      | ok t =>
          exact stores_of_storedOr hmade
            (leaves_fillAndPersist htemporary p (packed configuration level))

end Machine
end Storage
end FlowConfig
