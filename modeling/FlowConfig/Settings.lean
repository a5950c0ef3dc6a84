import FlowConfig.Json.Shape

/-!
# Settings

Where the flow configuration is stored, and how it is loaded.  Settings are
read from an object whose members may all be left out, or from a list of the
members' values in order.
-/

namespace FlowConfig

structure StorageSettings where
  flowFile : String := "conf/flow.xml.gz"
  compressionLevel : UInt32 := 6
deriving DecidableEq, Repr

namespace StorageSettings

def maxLevel : UInt32 := 9

def clampLevel (level : UInt32) : UInt32 :=
  min level maxLevel

theorem clampLevel_clampLevel (level : UInt32) :
    clampLevel (clampLevel level) = clampLevel level := by
  have hmin : forall a b : UInt32, min a b = if a ≤ b then a else b := fun _ _ => rfl
  rw [clampLevel, clampLevel, hmin level]
  split
  · next hle => rw [hmin, if_pos hle]
  · exact if_pos (UInt32.le_refl maxLevel)

def withFlowFile (s : StorageSettings) (path : String) : StorageSettings :=
  { s with flowFile := path }

def withCompressionLevel (s : StorageSettings) (level : UInt32) : StorageSettings :=
  { s with compressionLevel := clampLevel level }

end StorageSettings

structure Settings where
  storage : StorageSettings := {}
  autoResumeState : Bool := true
  checkBundles : Bool := true
  extensionsManifest : Option String := none
deriving DecidableEq, Repr

namespace Settings

def withFlowFile (s : Settings) (path : String) : Settings :=
  { s with storage := s.storage.withFlowFile path }

def withCompressionLevel (s : Settings) (level : UInt32) : Settings :=
  { s with storage := s.storage.withCompressionLevel level }

def withCheckBundles (s : Settings) (checkBundles : Bool) : Settings :=
  { s with checkBundles := checkBundles }

def withExtensionsManifest (s : Settings) (path : String) : Settings :=
  { s with extensionsManifest := some path }

end Settings

/-!
# Reading settings
-/

open Json (Reader MemberReader)

structure StorageDraft where
  flowFile : Option String := none
  compressionLevel : Option UInt32 := none

namespace StorageDraft

/-- What was not given takes its default.  A given level is kept as it is. -/
def finish (d : StorageDraft) : StorageSettings :=
  let defaults : StorageSettings := {}
  ⟨d.flowFile.getD defaults.flowFile, d.compressionLevel.getD defaults.compressionLevel⟩

def readFlowFile (d : StorageDraft) : Reader StorageDraft :=
  Reader.text.map fun path => { d with flowFile := some path }

def readLevel (d : StorageDraft) : Reader StorageDraft :=
  Reader.uint32.map fun level => { d with compressionLevel := some level }

def member : MemberReader StorageDraft := fun d key =>
  if key = "flow_configuration_file" then Json.once d.flowFile d.readFlowFile
  else if key = "compression_level" then Json.once d.compressionLevel d.readLevel
  else .ok (Reader.skipped d)

end StorageDraft

def StorageSettings.reader : Reader StorageSettings :=
  (Reader.record StorageDraft.member [StorageDraft.readFlowFile, StorageDraft.readLevel] {}).map
    StorageDraft.finish

structure SettingsDraft where
  storage : Option StorageSettings := none
  autoResumeState : Option Bool := none
  checkBundles : Option Bool := none
  extensionsManifest : Option (Option String) := none

namespace SettingsDraft

def finish (d : SettingsDraft) : Settings :=
  let defaults : Settings := {}
  ⟨d.storage.getD defaults.storage, d.autoResumeState.getD defaults.autoResumeState,
    d.checkBundles.getD defaults.checkBundles,
    d.extensionsManifest.getD defaults.extensionsManifest⟩

def readStorage (d : SettingsDraft) : Reader SettingsDraft :=
  StorageSettings.reader.map fun storage => { d with storage := some storage }

def readAutoResumeState (d : SettingsDraft) : Reader SettingsDraft :=
  Reader.flag.map fun b => { d with autoResumeState := some b }

def readCheckBundles (d : SettingsDraft) : Reader SettingsDraft :=
  Reader.flag.map fun b => { d with checkBundles := some b }

def readExtensionsManifest (d : SettingsDraft) : Reader SettingsDraft :=
  Reader.optionalText.map fun path => { d with extensionsManifest := some path }

def member : MemberReader SettingsDraft := fun d key =>
  if key = "storage" then Json.once d.storage d.readStorage
  else if key = "auto_resume_state" then Json.once d.autoResumeState d.readAutoResumeState
  else if key = "check_bundles" then Json.once d.checkBundles d.readCheckBundles
  else if key = "extensions_manifest" then
    Json.once d.extensionsManifest d.readExtensionsManifest
  else .ok (Reader.skipped d)

def fields : List (SettingsDraft -> Reader SettingsDraft) :=
  [readStorage, readAutoResumeState, readCheckBundles, readExtensionsManifest]

end SettingsDraft

namespace Settings

def reader : Reader Settings :=
  (Reader.record SettingsDraft.member SettingsDraft.fields {}).map SettingsDraft.finish

def parse (input : Bytes) : Except Json.Fault Settings :=
  reader.readAll input

end Settings
end FlowConfig
