import FlowConfig.Proofs.CommandLine.Reading
import FlowConfig.Proofs.Flow.Approval
import FlowConfig.Proofs.Storage.Runs

/-!
# Packing

A configuration is packed after it was read and found valid.  The disk may be
interrupted at any point of this.  Either the output then holds just what the input
held, or no file was changed.
-/

namespace FlowConfig
namespace CommandLine

open Storage (FileSystem Machine Path SystemFault bind_apply)

theorem packable_eq_ok_iff {input : String} {content configuration : Bytes} :
    packable input content = .ok configuration <->
      configuration = content ∧ exists d, Document.parse content = .ok (some d) := by
  rw [packable]
  cases Document.parse content with
  | error issue => simp
  | ok parsed =>
      cases parsed with
      | none => simp
      | some d => simp [eq_comm]

/-!
# One run
-/

/-- How a run of the command ends: the input is not read, or refused, or the output is
not written, or it is. -/
inductive PackRun (s : Machine) (input output : String) (level : UInt32) :
    Report -> Machine -> Prop where
  | unread {t : Machine} {cause : SystemFault}
      (hfetch : Machine.disk.fetch (Path.ofString input) s = (.error cause, t)) :
      PackRun s input output level (Report.failed (.input input cause)) t
  | refused {t : Machine} {content : Bytes} {failure : Failure}
      (hfetch : Machine.disk.fetch (Path.ofString input) s = (.ok content, t))
      (hrefused : packable input content = .error failure) :
      PackRun s input output level (Report.failed failure) t
  | unwritten {t u : Machine} {content : Bytes} {d : Document} {fault : Storage.Fault}
      (hfetch : Machine.disk.fetch (Path.ofString input) s = (.ok content, t))
      (hparse : Document.parse content = .ok (some d))
      (hwrite : Storage.write Machine.disk (Path.ofString output) content level t =
        (.error fault, u)) :
      PackRun s input output level (Report.failed (.storage fault)) u
  | written {t u : Machine} {content : Bytes} {d : Document}
      (hfetch : Machine.disk.fetch (Path.ofString input) s = (.ok content, t))
      (hparse : Document.parse content = .ok (some d))
      (hwrite : Storage.write Machine.disk (Path.ofString output) content level t =
        (.ok (), u)) :
      PackRun s input output level
        (Report.success ("packed " ++ input ++ " into " ++ output)) u

theorem packRun (s : Machine) (input output : String) (level : UInt32) :
    PackRun s input output level (pack Machine.disk input output level s).1
      (pack Machine.disk input output level s).2 := by
  rw [pack, bind_apply, readInput_plain]
  cases hfetch : Machine.disk.fetch (Path.ofString input) s with
  | mk answer t =>
      cases answer with
      | error cause => exact .unread hfetch
      | ok content =>
          simp only [Except.mapError]
          cases hpackable : packable input content with
          | error failure => exact .refused hfetch hpackable
          | ok configuration =>
              rcases packable_eq_ok_iff.mp hpackable with ⟨rfl, d, hparse⟩
              simp only
              rw [bind_apply]
              cases hwrite : Storage.write Machine.disk (Path.ofString output) configuration
                  level t with
              | mk written u =>
                  cases written with
                  | error fault => exact .unwritten hfetch hparse hwrite
                  | ok _ => exact .written hfetch hparse hwrite

/-!
# What a run leaves
-/

theorem leaves_fetch (s : Machine) (p : Path) :
    Machine.Leaves (Machine.disk.fetch p) s fun answer fs =>
      fs = s.files ∧ forall content, answer = .ok content -> s.files.fetch p = .ok content := by
  show Machine.Leaves (Machine.attempt (fun _ fs => fs) (FileSystem.disk.fetch p)) s _
  apply Machine.leaves_attempt
  · intro fault n
    exact ⟨rfl, nofun⟩
  · exact ⟨rfl, fun _ h => h⟩

theorem files_of_fetch {s t : Machine} {p : Path} {answer : Except SystemFault Bytes}
    (h : Machine.disk.fetch p s = (answer, t)) : t.files = s.files := by
  have hleaves := leaves_fetch s p
  rw [Machine.Leaves, h] at hleaves
  exact hleaves.left

theorem fetch_of_fetch_ok {s t : Machine} {p : Path} {content : Bytes}
    (h : Machine.disk.fetch p s = (.ok content, t)) : s.files.fetch p = .ok content := by
  have hleaves := leaves_fetch s p
  rw [Machine.Leaves, h] at hleaves
  exact hleaves.right content rfl

theorem stores_of_write {s t : Machine} {p : Path} {content : Bytes} {level : UInt32}
    {answer : Except Storage.Fault Unit}
    (h : Storage.write Machine.disk p content level s = (answer, t)) :
    Machine.Stores s.files p (Machine.packed content level) answer t.files := by
  have hleaves := Machine.leaves_write s p content level
  rw [Machine.Leaves, h] at hleaves
  exact hleaves

section

variable {s u : Machine} {input output : String} {level : UInt32} {report : Report}

theorem file?_of_packRun (h : PackRun s input output level report u)
    (hfails : report.failure ≠ none) (l : Storage.Location) :
    u.files.file? l = s.files.file? l := by
  cases h with
  | unread hfetch => rw [files_of_fetch hfetch]
  | refused hfetch _ => rw [files_of_fetch hfetch]
  | unwritten hfetch _ hwrite =>
      rw [(stores_of_write hwrite).failed _ rfl, files_of_fetch hfetch]
  | written _ _ _ => exact (hfails rfl).elim

/-- The input is read and holds a valid configuration, and writing that to the output
succeeds. -/
def Packs (s : Machine) (input output : String) (level : UInt32) (content : Bytes)
    (u : Machine) : Prop :=
  exists t d, Machine.disk.fetch (Path.ofString input) s = (.ok content, t) ∧
    Document.parse content = .ok (some d) ∧
    Storage.write Machine.disk (Path.ofString output) content level t = (.ok (), u)

theorem failure_eq_none_iff (h : PackRun s input output level report u) :
    report.failure = none <-> exists content, Packs s input output level content u := by
  constructor
  · intro hok
    cases h with
    | unread _ => cases hok
    | refused _ _ => cases hok
    | unwritten _ _ _ => cases hok
    | written hfetch hparse hwrite => exact ⟨_, _, _, hfetch, hparse, hwrite⟩
  · intro hpacks
    rcases hpacks with ⟨content, t, d, hfetched, hparsed, hwritten⟩
    cases h with
    | unread hfetch => cases hfetch.symm.trans hfetched
    | refused hfetch hrefused =>
        cases hfetch.symm.trans hfetched
        cases hrefused.symm.trans (packable_eq_ok_iff.mpr ⟨rfl, d, hparsed⟩)
    | unwritten hfetch _ hwrite =>
        cases hfetch.symm.trans hfetched
        cases hwrite.symm.trans hwritten
    | written _ _ _ => rfl

/-- What was packed is read back. -/
theorem stored_of_packs {content : Bytes} (h : Packs s input output level content u) :
    u.files.stored (Path.ofString output) = .ok content := by
  rcases h with ⟨t, d, _, _, hwrite⟩
  rcases (stores_of_write hwrite).stored rfl with ⟨l, hdenotes, hfiles⟩
  have hfile : u.files.file? l = some (Machine.packed content level) := by
    rw [hfiles, if_pos rfl]
  rw [FileSystem.stored, FileSystem.fetch_of_denotes? hdenotes hfile]
  exact Storage.unpack_packed _ content level

end

/-!
# Without interruptions
-/

theorem follows_pack (input output : String) (level : UInt32) :
    Machine.Follows (pack Machine.disk input output level)
      (pack FileSystem.disk input output level) := by
  refine Machine.follows_bind ?_ ?_
  · refine Machine.follows_bind (fun _ => rfl) ?_
    intro answer
    cases answer with
    | error cause => exact fun _ => rfl
    | ok content => exact fun _ => rfl
  · intro answer
    cases answer with
    | error failure => exact fun _ => rfl
    | ok content =>
        simp only
        cases packable input content with
        | error failure => exact fun _ => rfl
        | ok configuration =>
            refine Machine.follows_bind (Machine.follows_write _ configuration level) ?_
            intro written
            cases written with
            | error fault => exact fun _ => rfl
            | ok _ => exact fun _ => rfl

/-!
# Outcomes
-/

theorem execute_pack {packing : List String} {input output : String} {level : UInt32}
    (h : AskFor packing (.pack input output level)) (s : Machine) :
    execute Machine.disk packing s =
      (Outcome.ofReport (pack Machine.disk input output level s).1,
        (pack Machine.disk input output level s).2) := by
  rw [execute_of_askFor Machine.disk h]
  rfl

theorem execute_pack_uninterrupted {packing : List String} {input output : String}
    {level : UInt32} (h : AskFor packing (.pack input output level)) (fs : FileSystem) :
    execute Machine.disk packing ⟨fs, []⟩ =
      ((execute FileSystem.disk packing fs).1, ⟨(execute FileSystem.disk packing fs).2, []⟩) := by
  rw [execute_pack h, follows_pack input output level fs, execute_of_askFor FileSystem.disk h]
  rfl

/-- On every disk, however it is interrupted: if the command succeeds, the input held a
valid configuration, the output reads as just that, and it is told to be empty if the
input was.  If it fails, every regular file holds what it held.  It fails only if the
input cannot be read, is not valid or cannot be stored. -/
theorem pack_stores_only_valid (s : Machine) (input output : String) (level : UInt32)
    {packing asking askingPlain : List String}
    (hpacking : AskFor packing (.pack input output level))
    (hasking : AskFor asking (.empty output false))
    (hplain : AskFor askingPlain (.empty input true)) :
    (forall fs, execute Machine.disk packing ⟨fs, []⟩ =
      ((execute FileSystem.disk packing fs).1,
        ⟨(execute FileSystem.disk packing fs).2, []⟩)) ∧
    exists outcome u, execute Machine.disk packing s = (outcome, u) ∧
      (outcome.status = 0 -> exists content d emptied,
        s.files.fetch (Path.ofString input) = .ok content ∧
        Document.parse content = .ok (some d) ∧ flowSchema.Admits d.root ∧
        Storage.read FileSystem.disk (Path.ofString output) u.files = (.ok content, u.files) ∧
        execute FileSystem.disk askingPlain s.files = (emptied, s.files) ∧
        execute FileSystem.disk asking u.files = (emptied, u.files)) ∧
      (outcome.status ≠ 0 -> forall l, u.files.file? l = s.files.file? l) ∧
      (outcome.status = 0 <-> exists content, Packs s input output level content u) := by
  have hrun := packRun s input output level
  refine ⟨execute_pack_uninterrupted hpacking, _, _, execute_pack hpacking s, ?_, ?_, ?_⟩
  · intro hstatus
    rcases (failure_eq_none_iff hrun).mp ((status_eq_zero_iff _).mp hstatus) with
      ⟨content, hpacks⟩
    have hstored := stored_of_packs hpacks
    rcases hpacks with ⟨t, d, hfetch, hparse, _⟩
    have hinput := fetch_of_fetch_ok hfetch
    refine ⟨content, d, _, hinput, hparse, Document.admits_of_parse hparse, ?_,
      execute_empty hplain s.files, ?_⟩
    · rw [Storage.read_eq_stored, hstored]
    · rw [execute_empty hasking, inputAt_of_stored hstored, inputAt_of_fetch hinput]
  · intro hstatus
    exact file?_of_packRun hrun fun hok => hstatus ((status_eq_zero_iff _).mpr hok)
  · rw [status_eq_zero_iff]
    exact failure_eq_none_iff hrun

def plainDisk : Machine :=
  ⟨FileSystem.empty.put ["flow.xml"] (.file funnelFlow), []⟩

theorem pack_stores_only_valid_plainDisk :
    exists u, execute Machine.disk ["pack", "-l", "200", "flow.xml", "conf/flow"] plainDisk =
        (⟨"packed flow.xml into conf/flow\n", "", 0⟩, u) ∧
      Storage.read FileSystem.disk (Path.ofString "conf/flow") u.files =
        (.ok funnelFlow, u.files) ∧
      execute FileSystem.disk ["empty", "conf/flow"] u.files = (⟨"false\n", "", 0⟩, u.files) := by
  have hpacking : AskFor ["pack", "-l", "200", "flow.xml", "conf/flow"]
      (.pack "flow.xml" "conf/flow" 200) := ⟨false, rfl⟩
  have hasking : AskFor ["empty", "conf/flow"] (.empty "conf/flow" false) := ⟨false, rfl⟩
  have hplain : AskFor ["empty", "--plain", "flow.xml"] (.empty "flow.xml" true) := ⟨false, rfl⟩
  rcases (pack_stores_only_valid plainDisk "flow.xml" "conf/flow" 200 hpacking hasking
      hplain).right with ⟨outcome, u, hrun, hstored, _, _⟩
  have houtcome : outcome = ⟨"packed flow.xml into conf/flow\n", "", 0⟩ := by
    have hprinted : (execute Machine.disk ["pack", "-l", "200", "flow.xml", "conf/flow"]
        plainDisk).1 = ⟨"packed flow.xml into conf/flow\n", "", 0⟩ := by decide +kernel
    rw [← hprinted, hrun]
  have hstatus : outcome.status = 0 := by rw [houtcome]
  rcases hstored hstatus with ⟨content, _, emptied, hinput, _, _, hread, hbefore, hafter⟩
  have hcontent : content = funnelFlow := (Except.ok.inj hinput).symm
  have hemptied : emptied = ⟨"false\n", "", 0⟩ := by
    have hprinted : (execute FileSystem.disk ["empty", "--plain", "flow.xml"]
        plainDisk.files).1 = ⟨"false\n", "", 0⟩ := by decide +kernel
    rw [← hprinted, hbefore]
  refine ⟨u, ?_, ?_, ?_⟩
  · rw [hrun, houtcome]
  · rw [hread, hcontent]
  · rw [hafter, hemptied]

end CommandLine
end FlowConfig
