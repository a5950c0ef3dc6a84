import FlowConfig.Gzip.Member
import FlowConfig.Settings
import FlowConfig.Storage.Disk

/-!
# The store

Flow configurations are stored compressed.  A file that is missing or has no
bytes holds the empty configuration.  A file is replaced in one step by way of a
temporary one, which is removed when anything goes wrong.
-/

namespace FlowConfig
namespace Storage

inductive Fault where
  | io (path : String) (cause : SystemFault)
  | decompress (path : String) (cause : Gzip.Fault)
deriving DecidableEq, Repr

namespace Fault

def path : Fault -> String
  | .io path _ => path
  | .decompress path _ => path

def cause : Fault -> String
  | .io _ cause => cause.message
  | .decompress _ cause => cause.message

def message : Fault -> String
  | .io path cause => "IO error on " ++ path ++ ": " ++ cause.message
  | .decompress path cause => "Decompression error on " ++ path ++ ": " ++ cause.message

end Fault

variable {m : Type -> Type} [Monad m]

def unpack (path : Path) (content : Bytes) : Except Fault Bytes :=
  if content.isEmpty then .ok []
  else
    match Gzip.decompress content with
    | .ok bytes => .ok bytes
    | .error cause => .error (.decompress path.text cause)

def read (disk : Disk m) (path : Path) : m (Except Fault Bytes) := do
  match ← disk.fetch path with
  | .ok content => return unpack path content
  | .error .notFound => return .ok []
  | .error .isADirectory =>
      -- A directory is opened as a file is, and refused where its bytes are asked for.
      return .error (.decompress path.text (.unreadable SystemFault.isADirectory.message))
  | .error cause => return .error (.io path.text cause)

/-- Fills a temporary file and moves it to the path; removes it if that fails. -/
def fillAndPersist (disk : Disk m) (path : Path) (content : Bytes) (t : Temporary) :
    m (Except Fault Unit) := do
  match ← disk.fillTemporary t content with
  | .error cause =>
      disk.discard t
      return .error (.io path.text cause)
  | .ok () =>
      match ← disk.persist t path with
      | .error cause =>
          disk.discard t
          return .error (.io path.text cause)
      | .ok () => return .ok ()

/-- Stores a configuration.  Levels above the highest count as the highest. -/
def write (disk : Disk m) (path : Path) (configuration : Bytes) (level : UInt32) :
    m (Except Fault Unit) := do
  match ← disk.makeDirectories path.directory with
  | .error cause => return .error (.io path.text cause)
  | .ok () =>
      match ← disk.makeTemporary path.directory with
      | .error cause => return .error (.io path.text cause)
      | .ok t =>
          let level := StorageSettings.clampLevel level
          fillAndPersist disk path (Gzip.compress level.toNat configuration) t

end Storage
end FlowConfig
