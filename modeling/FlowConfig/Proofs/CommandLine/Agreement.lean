import FlowConfig.Proofs.CommandLine.Reading
import FlowConfig.Proofs.Storage.Runs

/-!
# Commands that agree

Checking a stored configuration, deciding whether it is loaded and asking whether it is
empty are separate commands.  They read the same bytes, and what they report goes
together: a configuration passes the check with a manifest if it is decided on with that
manifest, and the decision follows the answer about emptiness.
-/

namespace FlowConfig
namespace CommandLine

open Storage (FileSystem Path bind_apply)

/-!
# Reports on one content
-/

def checkedReport (file : String) (registry : Registry) : Except Failure Bytes -> Report
  | .error failure => Report.failed failure
  | .ok input =>
      match Document.parse input with
      | .error issue => Report.failed (.rejected issue)
      | .ok none => Report.success (file ++ ": no flow configuration")
      | .ok (some d) => checkReport file false d registry

def decisionReport (registry : Registry) : Except Storage.Fault Bytes -> Report
  | .error fault => Report.failed (.load (.unreadable fault))
  | .ok input =>
      match FlowConfig.classify registry.resolve true input with
      | .error refusal => Report.failed (.load (.refused refusal))
      | .ok decision => Report.success (decisionLine decision)

inductive ReportsAgree (file : String) : Report -> Report -> Report -> Prop where
  | failed (reason other : Failure) (emptied : Report) :
      ReportsAgree file (Report.failed reason) (Report.failed other) emptied
  | nothing :
      ReportsAgree file (Report.success (file ++ ": no flow configuration"))
        (Report.success "fresh") (Report.success "true")
  | fresh (d : Document) :
      ReportsAgree file (Report.success (validSummaryLine file d)) (Report.success "fresh")
        (Report.success "true")
  | loaded (d : Document) :
      ReportsAgree file (Report.success (validSummaryLine file d))
        (Report.success ("load: " ++ (Model.ofDocument d).summary.display))
        (Report.success "false")

theorem reportsAgree (file : String) (registry : Registry)
    (content : Except Storage.Fault Bytes) :
    ReportsAgree file (checkedReport file registry (content.mapError Failure.storage))
      (decisionReport registry content) (emptyReport (content.mapError Failure.storage)) := by
  cases content with
  | error fault => exact .failed _ _ _
  | ok input =>
      show ReportsAgree file (checkedReport file registry (.ok input))
        (decisionReport registry (.ok input)) (emptyReport (.ok input))
      rw [checkedReport, decisionReport, emptyReport, emptyLine, isEmptyFlow, FlowConfig.classify]
      cases Document.parse input with
      | error issue => exact .failed _ _ _
      | ok parsed =>
          cases parsed with
          | none => exact .nothing
          | some d =>
              simp only
              rw [checkReport, verifyBundles]
              simp only [Bool.false_eq_true, if_false, if_true]
              cases d.check registry.resolve with
              | error i => exact .failed _ _ _
              | ok _ =>
                  simp only
                  rw [Decision.ofModel]
                  cases (Model.ofDocument d).isEmpty with
                  | true => exact .fresh d
                  | false => exact .loaded d

/-!
# Commands on a file system
-/

section

variable {fs : FileSystem} {manifest : String} {registry : Registry}

theorem loadRegistry_some (h : fs.registry (Path.ofString manifest) = .ok registry) :
    loadRegistry FileSystem.disk (some manifest) fs = (.ok registry, fs) := by
  rw [loadRegistry, bind_apply, Storage.loadRegistry_eq_registry, h]
  rfl

theorem checkDocument_eq (h : fs.registry (Path.ofString manifest) = .ok registry)
    (file : String) (d : Document) :
    checkDocument FileSystem.disk file (some manifest) false d fs =
      (checkReport file false d registry, fs) := by
  rw [checkDocument, bind_apply, loadRegistry_some h]
  rfl

theorem check_eq_checkedReport (h : fs.registry (Path.ofString manifest) = .ok registry)
    (file : String) :
    check FileSystem.disk file false (some manifest) false fs =
      (checkedReport file registry (inputAt fs (Path.ofString file) false), fs) := by
  rw [check, bind_apply, readInput_eq_inputAt]
  cases inputAt fs (Path.ofString file) false with
  | error failure => rfl
  | ok input =>
      simp only
      rw [checkedReport]
      cases Document.parse input with
      | error issue => rfl
      | ok parsed =>
          cases parsed with
          | none => rfl
          | some d => exact checkDocument_eq h file d

theorem classify_eq_decisionReport (h : fs.registry (Path.ofString manifest) = .ok registry)
    (file : String) :
    classify FileSystem.disk none (some file) (some manifest) false fs =
      (decisionReport registry (fs.stored (Path.ofString file)), fs) := by
  have hload : loadRegistry FileSystem.disk
      (overrideSettings {} (some file) (some manifest) false).extensionsManifest fs =
        (.ok registry, fs) := loadRegistry_some h
  have hread : Storage.read FileSystem.disk (Path.ofString
      (overrideSettings {} (some file) (some manifest) false).storage.flowFile) fs =
        (fs.stored (Path.ofString file), fs) := Storage.read_eq_stored fs _
  have hchecked : (overrideSettings {} (some file) (some manifest) false).checkBundles = true :=
    rfl
  show classifyWith FileSystem.disk (overrideSettings {} (some file) (some manifest) false) fs = _
  rw [classifyWith, bind_apply, hload]
  simp only
  rw [bind_apply, Storage.loadFlow, bind_apply, hread, hchecked]
  cases fs.stored (Path.ofString file) with
  | error fault => rfl
  | ok input =>
      simp only
      rw [decisionReport]
      cases FlowConfig.classify registry.resolve true input with
      | error refusal => rfl
      | ok decision => rfl

end

/-!
# Outcomes
-/

/-- The outcomes that go together.  Where the decision fails, so does the check; where
it does not, it follows the answer about emptiness, and it names the summary that the
check prints. -/
structure OutcomesAgree (file : String) (checked decided emptied : Outcome) : Prop where
  status : checked.status = 0 <-> decided.status = 0
  answered : decided.status = 0 -> emptied.status = 0
  fresh : decided.status = 0 -> (decided.output = "fresh\n" <-> emptied.output = "true\n")
  load : decided.status = 0 -> decided.output ≠ "fresh\n" -> exists s : Summary,
    decided.output = "load: " ++ s.display ++ "\n" ∧
      checked.output = file ++ ": valid, " ++ s.display ++ "\n"

theorem status_failed (failure : Failure) :
    (Outcome.ofReport (Report.failed failure)).status ≠ 0 := by
  show (1 : UInt32) ≠ 0
  decide

theorem output_success (line : String) :
    (Outcome.ofReport (Report.success line)).output = line ++ "\n" :=
  joinLines_singleton line

theorem load_ne_fresh (text : String) : "load: " ++ text ++ "\n" ≠ "fresh\n" := by
  intro h
  have hhead := congrArg (fun s : String => s.toList.head?) h
  simp at hhead

theorem validSummaryLine_eq (file : String) (d : Document) :
    validSummaryLine file d = file ++ ": valid, " ++ (Model.ofDocument d).summary.display := by
  have hjoin : ": valid" ++ ", " = ": valid, " := rfl
  rw [validSummaryLine, validLine, ← hjoin, ← String.append_assoc]

theorem outcomesAgree_of_reportsAgree {file : String} {checked decided emptied : Report}
    (h : ReportsAgree file checked decided emptied) :
    OutcomesAgree file (Outcome.ofReport checked) (Outcome.ofReport decided)
      (Outcome.ofReport emptied) := by
  cases h with
  | failed reason other =>
      have hfails : (Outcome.ofReport (Report.failed other)).status ≠ 0 := status_failed other
      exact ⟨iff_of_false (status_failed reason) hfails, fun h => (hfails h).elim,
        fun h => (hfails h).elim, fun h => (hfails h).elim⟩
  | nothing =>
      refine ⟨iff_of_true rfl rfl, fun _ => rfl, fun _ => ?_, fun _ hfresh => ?_⟩
      · exact iff_of_true rfl rfl
      · exact (hfresh rfl).elim
  | fresh d =>
      refine ⟨iff_of_true rfl rfl, fun _ => rfl, fun _ => ?_, fun _ hfresh => ?_⟩
      · exact iff_of_true rfl rfl
      · exact (hfresh rfl).elim
  | loaded d =>
      refine ⟨iff_of_true rfl rfl, fun _ => rfl, fun _ => ?_, fun _ _ => ?_⟩
      · rw [output_success, output_success]
        exact iff_of_false (load_ne_fresh _) (by decide)
      · refine ⟨(Model.ofDocument d).summary, ?_, ?_⟩
        · rw [output_success]
        · rw [output_success, validSummaryLine_eq]

/-- Whatever a file holds, and with every manifest that can be loaded: the check
succeeds just if the decision to load does.  The decision is for a fresh start just if
the configuration is told to be empty, and otherwise it names the summary that the check
prints. -/
theorem check_and_decision_agree (fs : FileSystem) (file manifest : String)
    (registry : Registry)
    (hmanifest : (Storage.loadRegistry FileSystem.disk (Path.ofString manifest) fs).1 =
      .ok registry)
    {checking deciding asking : List String}
    (hchecking : AskFor checking (.check file false (some manifest) false))
    (hdeciding : AskFor deciding (.classify none (some file) (some manifest) false))
    (hasking : AskFor asking (.empty file false)) :
    exists checked decided emptied : Outcome,
      execute FileSystem.disk checking fs = (checked, fs) ∧
      execute FileSystem.disk deciding fs = (decided, fs) ∧
      execute FileSystem.disk asking fs = (emptied, fs) ∧
      OutcomesAgree file checked decided emptied := by
  rw [Storage.loadRegistry_eq_registry] at hmanifest
  have hagree := outcomesAgree_of_reportsAgree
    (reportsAgree file registry (fs.stored (Path.ofString file)))
  exact ⟨_, _, _, execute_eq hchecking (check_eq_checkedReport hmanifest file),
    execute_eq hdeciding (classify_eq_decisionReport hmanifest file),
    execute_empty hasking fs, hagree⟩

def funnelDisk : FileSystem :=
  (FileSystem.empty.put ["flow"] (.file (Storage.Machine.packed funnelFlow 6))).put
    ["bundles.json"] (.file (Utf8.encode "[]".toList))

theorem stored_funnelDisk : funnelDisk.stored (Path.ofString "flow") = .ok funnelFlow := by
  have hfetch : funnelDisk.fetch (Path.ofString "flow") =
      .ok (Storage.Machine.packed funnelFlow 6) := rfl
  rw [FileSystem.stored, hfetch]
  exact Storage.unpack_packed _ funnelFlow 6

def loads : Except Refusal Decision -> Bool
  | .ok (.load _) => true
  | _ => false

theorem exists_model_of_loads {answer : Except Refusal Decision} (h : loads answer = true) :
    exists model, answer = .ok (.load model) := by
  unfold loads at h
  split at h
  · exact ⟨_, rfl⟩
  · cases h

theorem exists_load_funnelDisk {deciding : List String}
    (h : AskFor deciding (.classify none (some "flow") (some "bundles.json") false)) :
    exists text, execute FileSystem.disk deciding funnelDisk =
      (Outcome.ofReport (Report.success ("load: " ++ text)), funnelDisk) := by
  have hmanifest : funnelDisk.registry (Path.ofString "bundles.json") = .ok Registry.empty :=
    rfl
  have hloads : loads (FlowConfig.classify Registry.empty.resolve true funnelFlow) = true := by
    decide +kernel
  rcases exists_model_of_loads hloads with ⟨model, hmodel⟩
  refine ⟨model.summary.display, execute_eq h ?_⟩
  have hrun := classify_eq_decisionReport hmanifest "flow"
  rw [stored_funnelDisk, decisionReport, hmodel] at hrun
  exact hrun

theorem check_and_decision_agree_funnelDisk :
    exists (checked decided : Outcome) (s : Summary),
      execute FileSystem.disk ["check", "flow", "--manifest", "bundles.json"] funnelDisk =
        (checked, funnelDisk) ∧
      execute FileSystem.disk
        ["classify", "--flow", "flow", "--manifest", "bundles.json"] funnelDisk =
          (decided, funnelDisk) ∧
      decided.output = "load: " ++ s.display ++ "\n" ∧
      checked.output = "flow" ++ ": valid, " ++ s.display ++ "\n" := by
  have hchecking : AskFor ["check", "flow", "--manifest", "bundles.json"]
      (.check "flow" false (some "bundles.json") false) := ⟨false, rfl⟩
  have hdeciding : AskFor ["classify", "--flow", "flow", "--manifest", "bundles.json"]
      (.classify none (some "flow") (some "bundles.json") false) := ⟨false, rfl⟩
  have hasking : AskFor ["empty", "flow"] (.empty "flow" false) := ⟨false, rfl⟩
  rcases check_and_decision_agree funnelDisk "flow" "bundles.json" Registry.empty rfl
      hchecking hdeciding hasking with
    ⟨checked, decided, emptied, hchecked, hdecided, _, hagree⟩
  rcases exists_load_funnelDisk hdeciding with ⟨text, hload⟩
  have hdecision : decided = Outcome.ofReport (Report.success ("load: " ++ text)) :=
    congrArg Prod.fst (hdecided.symm.trans hload)
  have hfresh : decided.output ≠ "fresh\n" := by
    rw [hdecision, output_success]
    exact load_ne_fresh text
  have hstatus : decided.status = 0 := by
    rw [hdecision]
    rfl
  rcases hagree.load hstatus hfresh with ⟨s, hprinted, hvalid⟩
  exact ⟨checked, decided, s, hchecked, hdecided, hprinted, hvalid⟩

end CommandLine
end FlowConfig
