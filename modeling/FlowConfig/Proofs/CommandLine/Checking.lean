import FlowConfig.CommandLine.Run
import FlowConfig.Proofs.Bundle.Reporting
import FlowConfig.Storage.FileSystem

/-!
# Checking for the first missing bundle or for all

The command that lists every missing bundle and the one that stops at the first
differ in what they print when they fail.  They never differ in whether they
fail, nor in what they print when they succeed.
-/

namespace FlowConfig
namespace CommandLine

open Storage (Disk FileSystem)

def Outcome.verdict (o : Outcome) : UInt32 × Option String :=
  (o.status, if o.status = 0 then some o.output else none)

def Report.verdict (r : Report) : UInt32 × Option String :=
  (Outcome.ofReport r).verdict

theorem verdict_success (line : String) :
    (Report.success line).verdict = (0, some (joinLines [line])) :=
  rfl

theorem verdict_of_failure (lines : List String) (failure : Failure) :
    (Report.mk lines (some failure)).verdict = (1, none) :=
  rfl

/-- Both ways to check come to the verdict that the list of missing bundles asks
for. -/
theorem verdict_checkReport (file : String) (all : Bool) (d : Document) (registry : Registry) :
    (checkReport file all d registry).verdict =
      match d.checkAll registry.resolve with
      | [] => (0, some (joinLines [validSummaryLine file d]))
      | _ :: _ => (1, none) := by
  cases all with
  | true =>
      show (checkAllReport file d registry).verdict = _
      rw [checkAllReport]
      cases d.checkAll registry.resolve with
      | nil => exact verdict_success _
      | cons report rest => exact verdict_of_failure _ _
  | false =>
      rw [checkReport, d.check_eq_firstOf, Document.faults]
      cases d.checkAll registry.resolve with
      | nil => exact verdict_success _
      | cons report rest => exact verdict_of_failure _ _

/-!
# Whole runs
-/

section

variable {m : Type -> Type} [Monad m] [LawfulMonad m] (disk : Disk m)

theorem map_verdict_checkDocument (file : String) (manifest : Option String) (d : Document) :
    Report.verdict <$> checkDocument disk file manifest false d =
      Report.verdict <$> checkDocument disk file manifest true d := by
  cases manifest with
  | none => rfl
  | some path =>
      rw [checkDocument, checkDocument, map_bind, map_bind]
      apply bind_congr
      intro loaded
      cases loaded with
      | error failure => rfl
      | ok registry => rw [map_pure, map_pure, verdict_checkReport, verdict_checkReport]

theorem map_verdict_check (file : String) (plain : Bool) (manifest : Option String) :
    Report.verdict <$> check disk file plain manifest false =
      Report.verdict <$> check disk file plain manifest true := by
  rw [check, check, map_bind, map_bind]
  apply bind_congr
  intro content
  cases content with
  | error failure => rfl
  | ok input =>
      simp only
      cases Document.parse input with
      | error issue => rfl
      | ok parsed =>
          cases parsed with
          | none => rfl
          | some d => exact map_verdict_checkDocument disk file manifest d

theorem map_verdict_execute {arguments : List String} {verbose : Bool} {command : Command}
    (h : readArguments arguments = .ok (.run ⟨verbose, command⟩)) :
    Outcome.verdict <$> execute disk arguments = Report.verdict <$> command.run disk := by
  rw [execute, h]
  simp only [map_bind, map_pure]
  rw [← map_eq_pure_bind]
  rfl

/-- The list of missing bundles has one report for each refused declaration of a
live component, in document order, and the check that stops early fails with the
first report, or not at all if there is none.  So the command ends with the same
status, and prints the same when it succeeds, whether or not it lists them all. -/
theorem check_agrees_with_list_of_all :
    (forall (d : Document) (resolver : Resolver),
      d.ReportsAll resolver (d.checkAll resolver) ∧
      (d.check resolver = .ok () <-> d.checkAll resolver = []) ∧
      forall report rest, d.checkAll resolver = report :: rest ->
        d.check resolver = .error report.incompatibility) ∧
    forall (file : String) (plain : Bool) (manifest : Option String)
      (first all : List String) (verbose verboseAll : Bool),
      readArguments first = .ok (.run ⟨verbose, .check file plain manifest false⟩) ->
        readArguments all = .ok (.run ⟨verboseAll, .check file plain manifest true⟩) ->
          Outcome.verdict <$> execute disk first = Outcome.verdict <$> execute disk all := by
  constructor
  · intro d resolver
    refine ⟨d.reportsAll_checkAll resolver, ?_, ?_⟩
    · rw [d.check_eq_firstOf, Document.faults]
      cases d.checkAll resolver with
      | nil => exact iff_of_true rfl rfl
      | cons report rest =>
          constructor
          · intro hok
            cases hok
          · intro hnil
            cases hnil
    · intro report rest hall
      rw [d.check_eq_firstOf, Document.faults, hall]
      rfl
  · intro file plain manifest first all verbose verboseAll hfirst hall
    rw [map_verdict_execute disk hfirst, map_verdict_execute disk hall]
    exact map_verdict_check disk file plain manifest

end

theorem check_agrees_with_list_of_all_flow :
    readArguments ["check", "flow.xml", "--plain", "-m", "bundles.json"] =
      .ok (.run ⟨false, .check "flow.xml" true (some "bundles.json") false⟩) ∧
    readArguments ["-v", "check", "--all", "-m", "bundles.json", "--plain", "flow.xml"] =
      .ok (.run ⟨true, .check "flow.xml" true (some "bundles.json") true⟩) ∧
    Outcome.verdict <$> execute FileSystem.disk
        ["check", "flow.xml", "--plain", "-m", "bundles.json"] =
      Outcome.verdict <$> execute FileSystem.disk
        ["-v", "check", "--all", "-m", "bundles.json", "--plain", "flow.xml"] := by
  have hfirst : readArguments ["check", "flow.xml", "--plain", "-m", "bundles.json"] =
      .ok (.run ⟨false, .check "flow.xml" true (some "bundles.json") false⟩) := by
    rfl
  have hall : readArguments ["-v", "check", "--all", "-m", "bundles.json", "--plain", "flow.xml"] =
      .ok (.run ⟨true, .check "flow.xml" true (some "bundles.json") true⟩) := by
    rfl
  exact ⟨hfirst, hall, (check_agrees_with_list_of_all FileSystem.disk).right
    "flow.xml" true (some "bundles.json") _ _ false true hfirst hall⟩

end CommandLine
end FlowConfig
