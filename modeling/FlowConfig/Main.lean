import FlowConfig.CommandLine.Run

/-!
# The program

Runs a command on the real disk.
-/

namespace FlowConfig
namespace Program

open Storage (Disk Path SystemFault Temporary)

def systemFault (e : IO.Error) : SystemFault :=
  match e with
  | .noFileOrDirectory .. => .notFound
  | .alreadyExists .. => .alreadyExists
  | e => .other (toString e)

def attempt {A : Type} (action : IO A) : IO (Except SystemFault A) := do
  try
    return .ok (← action)
  catch e =>
    return .error (systemFault e)

def temporaryPath (t : Temporary) : String :=
  (Path.ofNames t.directory.fromRoot (t.directory.names ++ [t.name])).text

def makeTemporary (directory : Path) : IO Temporary := do
  let tag ← IO.rand 0 0xFFFFFFFF
  let t : Temporary := ⟨directory, ".flow" ++ toString tag⟩
  IO.FS.writeBinFile (temporaryPath t) ByteArray.empty
  return t

def makeDirectories (directory : Path) : IO Unit := do
  unless directory.isEmpty do
    IO.FS.createDirAll directory.text

def realDisk : Disk IO where
  fetch path := attempt do
    return (← IO.FS.readBinFile path.text).toList
  makeDirectories directory := attempt (makeDirectories directory)
  makeTemporary directory := attempt (makeTemporary directory)
  fillTemporary t content :=
    attempt (IO.FS.writeBinFile (temporaryPath t) (ByteArray.mk content.toArray))
  persist t path := attempt (IO.FS.rename (temporaryPath t) path.text)
  discard t := do
    let _ ← attempt (IO.FS.removeFile (temporaryPath t))

end Program
end FlowConfig

def main (arguments : List String) : IO UInt32 := do
  let outcome ← FlowConfig.CommandLine.execute FlowConfig.Program.realDisk arguments
  IO.print outcome.output
  IO.eprint outcome.errors
  return outcome.status
