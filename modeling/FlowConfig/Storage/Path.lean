/-!
# Paths

A path is a row of names between slashes.  Empty names and names of one dot are
dropped; a path that ends with one of them can only mean a directory.  A path
starts from the working directory, or with a slash from the root.
-/

namespace FlowConfig
namespace Storage

structure Path where
  text : String
  fromRoot : Bool
  names : List String
  wantsDirectory : Bool
deriving DecidableEq, Repr

namespace Path

def splitSlashes : List Char -> List (List Char)
  | [] => [[]]
  | c :: rest =>
      if c = '/' then [] :: splitSlashes rest
      else
        match splitSlashes rest with
        | [] => [[c]]
        | part :: parts => (c :: part) :: parts

def isVoid (name : String) : Bool :=
  name == "" || name == "."

def ofString (text : String) : Path :=
  let parts := (splitSlashes text.toList).map String.ofList
  ⟨text, text != "" && parts.head? == some "", parts.filter fun name => !isVoid name,
    text != "" && (parts.getLast?.map isVoid).getD false⟩

def isEmpty (p : Path) : Bool :=
  p.text == ""

def ofNames (fromRoot : Bool) (names : List String) : Path :=
  let text := (if fromRoot then "/" else "") ++ String.intercalate "/" names
  ⟨text, fromRoot, names, false⟩

def directory (p : Path) : Path :=
  ofNames p.fromRoot p.names.dropLast

end Path

def upName : String := ".."

end Storage
end FlowConfig
