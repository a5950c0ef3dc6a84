import FlowConfig.Proofs.Gzip.Members
import FlowConfig.Proofs.Storage.Runs

/-!
# Stored files, joined and cut off

What a successful write leaves at its path is a gzip file of one member.  Files of
that kind may be put one behind the other, and read as the configurations in a row.
A file that lost its end does not read at all, so a configuration is never taken
for a shorter one.

Encoders are free to cut the content into blocks and to choose the codes of a block,
and some name the level in the header.  Of a file that was written here it is only
used that it is a single member with the content.  The results about `Gzip.IsMember`
are therefore those for a file from whichever encoder.
-/

namespace FlowConfig
namespace Storage

/-!
# What a write leaves
-/

/-- Some successful write of the configuration left the file at its path. -/
def Written (configuration : Bytes) (level : UInt32) (file : Bytes) : Prop :=
  exists (before after : FileSystem) (p : Path) (l : Location),
    write FileSystem.disk p configuration level before = (.ok (), after) ∧
      after.denotes? p = some l ∧ after.file? l = some file

theorem stores_write (before : FileSystem) (p : Path) (configuration : Bytes) (level : UInt32) :
    Machine.Stores before p (Machine.packed configuration level)
      (write FileSystem.disk p configuration level before).1
      (write FileSystem.disk p configuration level before).2 := by
  have hstores := Machine.leaves_write ⟨before, []⟩ p configuration level
  rw [Machine.Leaves, Machine.follows_write] at hstores
  exact hstores

theorem eq_packed_of_written {configuration file : Bytes} {level : UInt32}
    (h : Written configuration level file) : file = Machine.packed configuration level := by
  rcases h with ⟨before, after, p, l, hwrite, hdenotes, hfile⟩
  have hstores := stores_write before p configuration level
  rw [hwrite] at hstores
  rcases hstores.stored rfl with ⟨place, hplace, hfiles⟩
  have hsame : l = place := Option.some.inj (hdenotes.symm.trans hplace)
  have hpacked := hfiles place
  rw [if_pos rfl, ← hsame, hfile] at hpacked
  exact Option.some.inj hpacked

theorem isMember_packed (configuration : Bytes) (level : UInt32) :
    Gzip.IsMember configuration (Machine.packed configuration level) := by
  have hread := Gzip.readMember_compress (StorageSettings.clampLevel level).toNat configuration []
  rw [List.append_nil] at hread
  exact hread

theorem isMember_of_written {configuration file : Bytes} {level : UInt32}
    (h : Written configuration level file) : Gzip.IsMember configuration file := by
  rw [eq_packed_of_written h]
  exact isMember_packed configuration level

theorem written_packed (configuration : Bytes) (level : UInt32) :
    Written configuration level (Machine.packed configuration level) := by
  have hmade : FileSystem.disk.makeDirectories (Path.ofString "flow").directory
      FileSystem.empty = (.ok (), FileSystem.empty) := by
    show (FileSystem.empty.makeDirectories []).swap = _
    rw [FileSystem.makeDirectories, dif_pos rfl]
    rfl
  have hanswer : (write FileSystem.disk (Path.ofString "flow") configuration level
      FileSystem.empty).1 = .ok () := by
    rw [write]
    simp only [bind, StateT.bind, hmade]
    rfl
  have hstores := stores_write FileSystem.empty (Path.ofString "flow") configuration level
  rcases hstores.stored hanswer with ⟨l, hdenotes, hfiles⟩
  refine ⟨_, _, _, l, Prod.ext hanswer rfl, hdenotes, ?_⟩
  rw [hfiles, if_pos rfl]

/-!
# Files in a row
-/

theorem unpack_flatten {contents files : List Bytes}
    (h : List.Forall₂ Gzip.IsMember contents files) (p : Path) :
    unpack p files.flatten = .ok contents.flatten := by
  cases h with
  | nil => rfl
  | @cons content file contents files hmember hmore =>
      have hnonempty : (file :: files).flatten.isEmpty = false :=
        List.isEmpty_eq_false_iff.mpr (List.append_ne_nil_of_left_ne_nil hmember.ne_nil _)
      have hall := Gzip.decompressFrom_flatten (.cons hmember hmore) (List.cons_ne_nil _ _) #[]
      rw [unpack, hnonempty, Gzip.decompress, hall]
      rfl

/-- Files that were written, put one behind the other, read as what was written in
them, in a row.  So do files of one member from any other encoder. -/
theorem read_joins_files (fs : FileSystem) (p : Path) (files : List Bytes)
    (hfetch : fs.fetch p = .ok files.flatten) :
    (forall writes : List (Bytes × UInt32),
      List.Forall₂ (fun written file => Written written.1 written.2 file) writes files ->
        read FileSystem.disk p fs = (.ok (writes.map Prod.fst).flatten, fs)) ∧
    forall contents : List Bytes, List.Forall₂ Gzip.IsMember contents files ->
      read FileSystem.disk p fs = (.ok contents.flatten, fs) := by
  have hmembers : forall contents : List Bytes, List.Forall₂ Gzip.IsMember contents files ->
      read FileSystem.disk p fs = (.ok contents.flatten, fs) := by
    intro contents hcontents
    rw [read_of_fetch hfetch, unpack_flatten hcontents]
  refine ⟨?_, hmembers⟩
  intro writes hwrites
  apply hmembers
  rw [List.forall₂_map_left_iff]
  exact hwrites.imp fun _ _ hwritten => isMember_of_written hwritten

def joinedFiles : List Bytes :=
  [Machine.packed [60, 97, 62] 9, Machine.packed [] 0, Machine.packed [60, 47, 97, 62] 1]

def joinedDisk : FileSystem :=
  FileSystem.empty.put ["flow"] (.file joinedFiles.flatten)

theorem read_joins_files_joinedDisk :
    joinedDisk.fetch (Path.ofString "flow") = .ok joinedFiles.flatten ∧
      read FileSystem.disk (Path.ofString "flow") joinedDisk =
        (.ok [60, 97, 62, 60, 47, 97, 62], joinedDisk) := by
  have hfetch : joinedDisk.fetch (Path.ofString "flow") = .ok joinedFiles.flatten := rfl
  have hwrites : List.Forall₂ (fun written file => Written written.1 written.2 file)
      [([60, 97, 62], 9), ([], 0), ([60, 47, 97, 62], 1)] joinedFiles :=
    .cons (written_packed _ 9) (.cons (written_packed _ 0) (.cons (written_packed _ 1) .nil))
  exact ⟨hfetch, (read_joins_files joinedDisk (Path.ofString "flow") joinedFiles hfetch).left
    _ hwrites⟩

/-!
# Files that lost their end
-/

theorem exists_fault_unpack_take {configuration file : Bytes} {n : Nat}
    (h : Gzip.IsMember configuration file) (hpos : 0 < n) (hn : n < file.length) (p : Path) :
    exists cause, cause.isEnd = true ∧
      unpack p (file.take n) = .error (.decompress p.text cause) := by
  rcases Gzip.exists_fault_decompress_take h hn with ⟨cause, hend, hfault⟩
  have hnonempty : (file.take n).isEmpty = false := by
    apply List.isEmpty_eq_false_iff.mpr
    apply List.ne_nil_of_length_pos
    rw [List.length_take]
    exact Nat.lt_min.mpr ⟨hpos, Nat.lt_trans hpos hn⟩
  refine ⟨cause, hend, ?_⟩
  rw [unpack, hnonempty, hfault]
  rfl

/-- A file of which only the first bytes are left, and not all of them, does not
read: decompressing fails for its path, because the file ends too early.  This holds
of every file that was written, and of a file of one member from any other
encoder. -/
theorem read_refuses_cut_file (fs : FileSystem) (p : Path) (file : Bytes) (n : Nat)
    (hpos : 0 < n) (hn : n < file.length) (hfetch : fs.fetch p = .ok (file.take n)) :
    (forall (configuration : Bytes) (level : UInt32), Written configuration level file ->
      exists cause, cause.isEnd = true ∧
        read FileSystem.disk p fs = (.error (.decompress p.text cause), fs)) ∧
    forall configuration : Bytes, Gzip.IsMember configuration file ->
      exists cause, cause.isEnd = true ∧
        read FileSystem.disk p fs = (.error (.decompress p.text cause), fs) := by
  have hmember : forall configuration : Bytes, Gzip.IsMember configuration file ->
      exists cause, cause.isEnd = true ∧
        read FileSystem.disk p fs = (.error (.decompress p.text cause), fs) := by
    intro configuration h
    rcases exists_fault_unpack_take h hpos hn p with ⟨cause, hend, hunpack⟩
    refine ⟨cause, hend, ?_⟩
    rw [read_of_fetch hfetch, hunpack]
  exact ⟨fun _ _ hwritten => hmember _ (isMember_of_written hwritten), hmember⟩

def cutDisk : FileSystem :=
  FileSystem.empty.put ["flow"] (.file ((Machine.packed [60, 97, 47, 62] 6).take 13))

theorem read_refuses_cut_file_cutDisk :
    13 < (Machine.packed [60, 97, 47, 62] 6).length ∧
      exists cause, cause.isEnd = true ∧
        read FileSystem.disk (Path.ofString "flow") cutDisk =
          (.error (.decompress "flow" cause), cutDisk) := by
  have hlength : 13 < (Machine.packed [60, 97, 47, 62] 6).length := by
    have hheader : Gzip.header.length = 10 := rfl
    have htrailer : (Gzip.trailer [60, 97, 47, 62]).length = 8 := by
      rw [Gzip.trailer, List.length_append, Gzip.length_littleEndian, Gzip.length_littleEndian]
    rw [Machine.packed, Gzip.compress, List.length_append, List.length_append, hheader, htrailer]
    omega
  have hfetch : cutDisk.fetch (Path.ofString "flow") =
      .ok ((Machine.packed [60, 97, 47, 62] 6).take 13) := rfl
  exact ⟨hlength, (read_refuses_cut_file cutDisk (Path.ofString "flow") _ 13 (by decide) hlength
    hfetch).left _ 6 (written_packed _ 6)⟩

end Storage
end FlowConfig
