import FlowConfig.Bundle.Manifest
import FlowConfig.Flow.Loading
import FlowConfig.Storage.Store

/-!
# Loading from disk

Settings, the manifest of installed bundles and the stored configuration, each
read from its file.
-/

namespace FlowConfig
namespace Storage

variable {m : Type -> Type} [Monad m]

def describeJsonFault : Json.Fault -> String
  | .malformed => "not well formed"
  | .mismatched => "not of the expected shape"
  | .ended => "ends too early"

/-!
# Settings
-/

inductive SettingsFault where
  | unreadable (path : String) (cause : SystemFault)
  | invalid (path : String) (fault : Json.Fault)
deriving DecidableEq, Repr

def SettingsFault.message : SettingsFault -> String
  | .unreadable path cause => "Cannot read config " ++ path ++ ": " ++ cause.message
  | .invalid path fault => "Invalid config " ++ path ++ ": " ++ describeJsonFault fault

def loadSettings (disk : Disk m) (path : Path) : m (Except SettingsFault Settings) := do
  match ← disk.fetch path with
  | .error cause => return .error (.unreadable path.text cause)
  | .ok content =>
      match Settings.parse content with
      | .error fault => return .error (.invalid path.text fault)
      | .ok settings => return .ok settings

/-!
# The manifest
-/

inductive ManifestFault where
  | unreadable (path : String) (cause : SystemFault)
  | invalid (path : String) (fault : Json.Fault)
  | repeated (fault : RegistryFault)
deriving DecidableEq, Repr

def ManifestFault.message : ManifestFault -> String
  | .unreadable path cause => "Cannot read extension manifest " ++ path ++ ": " ++ cause.message
  | .invalid path fault => "Invalid extension manifest " ++ path ++ ": " ++ describeJsonFault fault
  | .repeated fault => fault.message

def registryOfManifest (path : String) (content : Bytes) : Except ManifestFault Registry :=
  match Manifest.parse content with
  | .error fault => .error (.invalid path fault)
  | .ok bundles =>
      match Registry.ofBundles bundles with
      | .error fault => .error (.repeated fault)
      | .ok registry => .ok registry

def loadRegistry (disk : Disk m) (path : Path) : m (Except ManifestFault Registry) := do
  match ← disk.fetch path with
  | .error cause => return .error (.unreadable path.text cause)
  | .ok content => return registryOfManifest path.text content

/-!
# The stored configuration
-/

inductive LoadFault where
  | unreadable (fault : Fault)
  | refused (refusal : Refusal)
deriving DecidableEq, Repr

namespace LoadFault

def unreadableMessage (fault : Fault) : String :=
  "i/o error on " ++ fault.path ++ ": " ++ fault.cause

def message : LoadFault -> String
  | .unreadable fault => unreadableMessage fault
  | .refused refusal => refusal.message

/-- The configuration itself is at fault, not the disk. -/
def rejectsInput : LoadFault -> Bool
  | .unreadable _ => false
  | .refused _ => true

end LoadFault

def loadFlow (disk : Disk m) (settings : Settings) (resolver : Resolver) :
    m (Except LoadFault Decision) := do
  match ← read disk (Path.ofString settings.storage.flowFile) with
  | .error fault => return .error (.unreadable fault)
  | .ok input =>
      match classify resolver settings.checkBundles input with
      | .error refusal => return .error (.refused refusal)
      | .ok decision => return .ok decision

end Storage
end FlowConfig
