import FlowConfig.Proofs.Gzip.RoundTrip
import FlowConfig.Proofs.Storage.Interruption

/-!
# Runs of the store

However many configurations are stored one after the other, and wherever that is
interrupted, a file holds the last configuration that was stored in it, or what it
held at first.
-/

namespace FlowConfig
namespace Storage

structure Request where
  path : Path
  configuration : Bytes
  level : UInt32

structure Call where
  request : Request
  answer : Except Fault Unit
  before : FileSystem
  after : FileSystem

namespace Call

/-- The regular files after the call are those before it, except for the one that
was replaced if it succeeded. -/
def Sound (c : Call) : Prop :=
  Machine.Stores c.before c.request.path (Machine.packed c.request.configuration c.request.level)
    c.answer c.after

/-- The call succeeded, and the file is the one that its path means. -/
def wrote (c : Call) (l : Location) : Bool :=
  c.answer.isOk && c.after.denotes? c.request.path == some l

theorem file?_after_of_sound {c : Call} (h : c.Sound) (l : Location) :
    c.after.file? l =
      if c.wrote l then some (Machine.packed c.request.configuration c.request.level)
      else c.before.file? l := by
  obtain ⟨request, answer, before, after⟩ := c
  cases answer with
  | error fault => exact h.failed fault rfl l
  | ok _ =>
      rcases h.stored rfl with ⟨place, hdenotes, hfiles⟩
      have hplace : after.denotes? request.path = some place := hdenotes
      have hwrote : wrote ⟨request, .ok (), before, after⟩ l = (l == place) := by
        show (true && after.denotes? request.path == some l) = _
        rw [hplace, Bool.true_and, Bool.eq_iff_iff, beq_iff_eq, beq_iff_eq, Option.some.injEq]
        exact eq_comm
      rw [hwrote, hfiles l]
      by_cases heq : l = place
      · simp [heq]
      · simp [heq]

end Call

def lastWrite? (calls : List Call) (l : Location) : Option Call :=
  calls.reverse.find? fun c => c.wrote l

theorem lastWrite?_cons (c : Call) (calls : List Call) (l : Location) :
    lastWrite? (c :: calls) l =
      (lastWrite? calls l).or (if c.wrote l then some c else none) := by
  rw [lastWrite?, List.reverse_cons, List.find?_append, List.find?_singleton]
  rfl

/-!
# Runs
-/

namespace Machine

def store (s : Machine) (r : Request) : Call × Machine :=
  let (answer, t) := write disk r.path r.configuration r.level s
  (⟨r, answer, s.files, t.files⟩, t)

def storeAll (s : Machine) : List Request -> List Call × Machine
  | [] => ([], s)
  | r :: rest =>
      let (call, t) := s.store r
      let (calls, u) := t.storeAll rest
      (call :: calls, u)

theorem store_uninterrupted (fs : FileSystem) (r : Request) :
    store ⟨fs, []⟩ r =
      let (answer, after) := write FileSystem.disk r.path r.configuration r.level fs
      (⟨r, answer, fs, after⟩, ⟨after, []⟩) := by
  rw [store, follows_write r.path r.configuration r.level fs]
  rfl

theorem sound_store (s : Machine) (r : Request) : (s.store r).1.Sound :=
  leaves_write s r.path r.configuration r.level

theorem sound_of_mem_storeAll {s : Machine} {requests : List Request} {call : Call}
    (h : call ∈ (s.storeAll requests).1) : call.Sound := by
  induction requests generalizing s with
  | nil => cases h
  | cons r rest ih =>
      rcases List.mem_cons.mp h with heq | hrest
      · rw [heq]
        exact s.sound_store r
      · exact ih hrest

/-- A file holds what the last call that wrote it stored, or what it held at
first. -/
theorem file?_storeAll (s : Machine) (requests : List Request) (l : Location) :
    (s.storeAll requests).2.files.file? l =
      match lastWrite? (s.storeAll requests).1 l with
      | some c => some (packed c.request.configuration c.request.level)
      | none => s.files.file? l := by
  induction requests generalizing s with
  | nil => rfl
  | cons r rest ih =>
      show ((s.store r).2.storeAll rest).2.files.file? l =
        match lastWrite? ((s.store r).1 :: ((s.store r).2.storeAll rest).1) l with
        | some c => some (packed c.request.configuration c.request.level)
        | none => s.files.file? l
      have hfirst : (s.store r).2.files.file? l = _ :=
        Call.file?_after_of_sound (s.sound_store r) l
      rw [ih, lastWrite?_cons]
      cases lastWrite? ((s.store r).2.storeAll rest).1 l with
      | some c => rfl
      | none =>
          simp only [Option.none_or]
          rw [hfirst]
          cases (s.store r).1.wrote l with
          | true => rfl
          | false => rfl

end Machine

theorem write_withCompressionLevel {m : Type -> Type} [Monad m] (disk : Disk m) (path : Path)
    (configuration : Bytes) (settings : Settings) (level : UInt32) :
    write disk path configuration
        (settings.withCompressionLevel level).storage.compressionLevel =
      write disk path configuration level := by
  rw [write, write]
  simp only [Settings.withCompressionLevel, StorageSettings.withCompressionLevel,
    StorageSettings.clampLevel_clampLevel]

/-!
# Reading
-/

theorem unpack_packed (p : Path) (configuration : Bytes) (level : UInt32) :
    unpack p (Machine.packed configuration level) = .ok configuration := by
  have hnonempty : (Machine.packed configuration level).isEmpty = false :=
    List.isEmpty_eq_false_iff.mpr (Gzip.compress_ne_nil _ _)
  rw [unpack, hnonempty, Machine.packed, Gzip.decompress_compress]
  rfl

theorem read_of_fetch {fs : FileSystem} {p : Path} {content : Bytes}
    (h : fs.fetch p = .ok content) : read FileSystem.disk p fs = (unpack p content, fs) := by
  have hfetch : FileSystem.disk.fetch p fs = (.ok content, fs) := congrArg (fun r => (r, fs)) h
  rw [read]
  simp only [bind, StateT.bind, hfetch]
  rfl

/-- From every file system, with every run of requests and every interruption of
it: each call leaves the regular files as they were, except for the one that its
path means if it succeeded; and after the run every path that means a regular file
reads as what was last stored in that file, or else as what it held at first.  Runs
without interruptions are those on the file system itself. -/
theorem storeAll_keeps_last_write (s : Machine) (requests : List Request) :
    (forall fs r, Machine.store ⟨fs, []⟩ r =
      let (answer, after) := write FileSystem.disk r.path r.configuration r.level fs
      (⟨r, answer, fs, after⟩, ⟨after, []⟩)) ∧
    (forall call, call ∈ (s.storeAll requests).1 -> call.Sound) ∧
    forall p l, (s.storeAll requests).2.files.denotes? p = some l ->
      (forall call, lastWrite? (s.storeAll requests).1 l = some call ->
        read FileSystem.disk p (s.storeAll requests).2.files =
          (.ok call.request.configuration, (s.storeAll requests).2.files)) ∧
      (lastWrite? (s.storeAll requests).1 l = none ->
        exists content, s.files.file? l = some content ∧
          read FileSystem.disk p (s.storeAll requests).2.files =
            (unpack p content, (s.storeAll requests).2.files)) := by
  refine ⟨Machine.store_uninterrupted, fun _ hcall => Machine.sound_of_mem_storeAll hcall, ?_⟩
  intro p l hdenotes
  have hfile := s.file?_storeAll requests l
  constructor
  · intro call hlast
    rw [hlast] at hfile
    rw [read_of_fetch (FileSystem.fetch_of_denotes? hdenotes hfile), unpack_packed]
  · intro hlast
    rw [hlast] at hfile
    rcases (FileSystem.denotes?_eq_some_iff.mp hdenotes).right.right.right with
      ⟨content, hcontent⟩
    refine ⟨content, ?_, read_of_fetch (FileSystem.fetch_of_denotes? hdenotes hcontent)⟩
    rw [← hcontent, hfile]

def fullDisk : Machine :=
  ⟨FileSystem.empty, List.replicate 6 none ++
    [some ⟨.other "No space left on device (os error 28)", 1⟩]⟩

def twoRequests : List Request :=
  [⟨Path.ofString "conf/flow", [1], 6⟩, ⟨Path.ofString "conf/flow", [2], 6⟩]

theorem storeAll_keeps_last_write_fullDisk :
    (fullDisk.storeAll twoRequests).1.map (fun call => call.answer.isOk) = [true, false] ∧
      read FileSystem.disk (Path.ofString "conf/flow") (fullDisk.storeAll twoRequests).2.files =
        (.ok [1], (fullDisk.storeAll twoRequests).2.files) := by
  have hdenotes : (fullDisk.storeAll twoRequests).2.files.denotes? (Path.ofString "conf/flow") =
      some ["conf", "flow"] := by
    decide +kernel
  have hlast : (lastWrite? (fullDisk.storeAll twoRequests).1 ["conf", "flow"]).map
      (fun call => call.request.configuration) = some [1] := by
    decide +kernel
  rcases Option.map_eq_some_iff.mp hlast with ⟨call, hcall, hconfiguration⟩
  refine ⟨by decide +kernel, ?_⟩
  have hread := ((storeAll_keeps_last_write fullDisk twoRequests).right.right _ _ hdenotes).left
    call hcall
  rw [hconfiguration] at hread
  exact hread

end Storage
end FlowConfig
