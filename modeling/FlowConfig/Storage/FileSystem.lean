import FlowConfig.Storage.Disk

/-!
# File systems

A file system as a value: for each location what is there.  A location is the
row of names that leads to it from the top directory, which always exists and
from which every path starts.
-/

namespace FlowConfig
namespace Storage

abbrev Location := List String

inductive Item where
  | file (content : Bytes)
  | directory
deriving DecidableEq, Repr

structure FileSystem where
  items : List (Location × Item)
deriving DecidableEq, Repr

namespace FileSystem

def empty : FileSystem := ⟨[]⟩

def item? (fs : FileSystem) (l : Location) : Option Item :=
  if l = [] then some .directory else fs.items.lookup l

def file? (fs : FileSystem) (l : Location) : Option Bytes :=
  match fs.item? l with
  | some (.file content) => some content
  | _ => none

def isDirectory (fs : FileSystem) (l : Location) : Bool :=
  fs.item? l == some .directory

def erase (fs : FileSystem) (l : Location) : FileSystem :=
  ⟨fs.items.filter fun entry => entry.1 ≠ l⟩

def put (fs : FileSystem) (l : Location) (item : Item) : FileSystem :=
  ⟨(l, item) :: (fs.erase l).items⟩

def names (fs : FileSystem) (l : Location) : List String :=
  (fs.items.filter fun entry => entry.1 ≠ [] && entry.1.dropLast = l).map
    fun entry => entry.1.getLastD ""

/-!
# Finding places
-/

def enter (fs : FileSystem) (l : Location) (name : String) : Except SystemFault Location :=
  if name = upName then .ok l.dropLast
  else
    match fs.item? (l ++ [name]) with
    | some .directory => .ok (l ++ [name])
    | some (.file _) => .error .notADirectory
    | none => .error .notFound

def enterAll (fs : FileSystem) (l : Location) : List String -> Except SystemFault Location
  | [] => .ok l
  | name :: names =>
      match fs.enter l name with
      | .error fault => .error fault
      | .ok l => fs.enterAll l names

/-- Where names lead to, whether or not anything is there: all but the last must
be directories. -/
def locate (fs : FileSystem) (names : List String) : Except SystemFault Location :=
  match names.getLast? with
  | none => .ok []
  | some name =>
      match fs.enterAll [] names.dropLast with
      | .error fault => .error fault
      | .ok l => .ok (if name = upName then l.dropLast else l ++ [name])

/-!
# Operations
-/

def fetch (fs : FileSystem) (p : Path) : Except SystemFault Bytes :=
  if p.isEmpty then .error .notFound
  else
    match fs.locate p.names with
    | .error fault => .error fault
    | .ok l =>
        match fs.item? l with
        | none => .error .notFound
        | some .directory => .error .isADirectory
        | some (.file content) =>
            if p.wantsDirectory then .error .notADirectory else .ok content

def makeDirectory (fs : FileSystem) (names : List String) : Except SystemFault FileSystem :=
  match fs.locate names with
  | .error fault => .error fault
  | .ok l =>
      match fs.item? l with
      | some _ => .error .alreadyExists
      | none => .ok (fs.put l .directory)

def leadsToDirectory (fs : FileSystem) (names : List String) : Bool :=
  match fs.locate names with
  | .error _ => false
  | .ok l => fs.isDirectory l

/-- Makes a directory, first all above it if there is nothing to put it in.  A
directory that is there already is no fault. -/
def makeDirectories (fs : FileSystem) (names : List String) :
    FileSystem × Except SystemFault Unit :=
  if _h : names = [] then (fs, .ok ())
  else
    match fs.makeDirectory names with
    | .ok fs => (fs, .ok ())
    | .error .notFound =>
        match fs.makeDirectories names.dropLast with
        | (fs, .error fault) => (fs, .error fault)
        | (fs, .ok ()) =>
            match fs.makeDirectory names with
            | .ok fs => (fs, .ok ())
            | .error fault =>
                (fs, if fs.leadsToDirectory names then .ok () else .error fault)
    | .error fault => (fs, if fs.leadsToDirectory names then .ok () else .error fault)
termination_by names.length
decreasing_by
  have hpos := List.length_pos_iff.mpr _h
  rw [List.length_dropLast]
  omega

/-- A name that is longer than any in a directory, so it is not taken. -/
def freshName (fs : FileSystem) (l : Location) : String :=
  let longest := ((fs.names l).map String.length).foldl max 0
  String.ofList ('.' :: List.replicate longest 't')

def temporaryLocation (t : Temporary) : Location :=
  t.directory.names ++ [t.name]

def makeTemporary (fs : FileSystem) (directory : Path) :
    FileSystem × Except SystemFault Temporary :=
  match fs.enterAll [] directory.names with
  | .error fault => (fs, .error fault)
  | .ok l =>
      let name := fs.freshName l
      (fs.put (l ++ [name]) (.file []), .ok ⟨Path.ofNames directory.fromRoot l, name⟩)

def fillTemporary (fs : FileSystem) (t : Temporary) (content : Bytes) : FileSystem :=
  fs.put (temporaryLocation t) (.file content)

/-- Where a file may be moved to by a path: a place in a directory that is not a
directory itself. -/
def target (fs : FileSystem) (p : Path) : Except SystemFault Location :=
  if p.isEmpty then .error .notFound
  else if p.names.getLast?.all (· = upName) then .error .busy
  else
    match fs.locate p.names with
    | .error fault => .error fault
    | .ok l =>
        if p.wantsDirectory then .error .notADirectory
        else if fs.isDirectory l then .error .isADirectory
        else .ok l

def persist (fs : FileSystem) (t : Temporary) (p : Path) :
    FileSystem × Except SystemFault Unit :=
  match fs.target p with
  | .error fault => (fs, .error fault)
  | .ok l =>
      match fs.item? (temporaryLocation t) with
      | none => (fs, .error .notFound)
      | some item => ((fs.erase (temporaryLocation t)).put l item, .ok ())

def discard (fs : FileSystem) (t : Temporary) : FileSystem :=
  fs.erase (temporaryLocation t)

/-!
# As a disk
-/

/-- A file system that is passed along. -/
def disk : Disk (StateM FileSystem) where
  fetch p := fun fs => (fs.fetch p, fs)
  makeDirectories p := fun fs => (fs.makeDirectories p.names).swap
  makeTemporary directory := fun fs => (fs.makeTemporary directory).swap
  fillTemporary t content := fun fs => (.ok (), fs.fillTemporary t content)
  persist t p := fun fs => (fs.persist t p).swap
  discard t := fun fs => ((), fs.discard t)

end FileSystem
end Storage
end FlowConfig
