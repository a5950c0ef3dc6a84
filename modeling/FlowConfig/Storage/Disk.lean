import FlowConfig.Bytes
import FlowConfig.Storage.Path

/-!
# Disks

What the store needs from a disk: reading a file, making directories, and
replacing a file by way of a temporary one.  A disk can be a real one or a value
that is passed along.
-/

namespace FlowConfig
namespace Storage

inductive SystemFault where
  | notFound
  | alreadyExists
  | notADirectory
  | isADirectory
  | busy
  | other (text : String)
deriving DecidableEq, Repr

def SystemFault.message : SystemFault -> String
  | .notFound => "No such file or directory (os error 2)"
  | .alreadyExists => "File exists (os error 17)"
  | .notADirectory => "Not a directory (os error 20)"
  | .isADirectory => "Is a directory (os error 21)"
  | .busy => "Device or resource busy (os error 16)"
  | .other text => text

/-- A temporary file, named by the directory that holds it and its own name. -/
structure Temporary where
  directory : Path
  name : String
deriving DecidableEq, Repr

structure Disk (m : Type -> Type) where
  fetch : Path -> m (Except SystemFault Bytes)
  /-- Makes a directory and all above it that are missing. -/
  makeDirectories : Path -> m (Except SystemFault Unit)
  /-- Makes a new empty file in a directory. -/
  makeTemporary : Path -> m (Except SystemFault Temporary)
  fillTemporary : Temporary -> Bytes -> m (Except SystemFault Unit)
  /-- Moves a temporary file to a path, in one step. -/
  persist : Temporary -> Path -> m (Except SystemFault Unit)
  discard : Temporary -> m Unit

end Storage
end FlowConfig
