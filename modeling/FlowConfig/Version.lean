import FlowConfig.Text.Numeral

/-!
# Encoding versions

A flow names the revision of its field layout as `major.minor`.  A missing,
blank or unreadable version counts as none.
-/

namespace FlowConfig

structure Version where
  major : UInt32
  minor : UInt32
deriving DecidableEq, Repr

inductive VersionFault where
  | format (text : String)
  | component (text : String)
deriving DecidableEq, Repr

def VersionFault.message : VersionFault -> String
  | .format text => "Invalid encoding version format: " ++ text
  | .component text => "Invalid encoding version component: " ++ text

namespace Version

def attributeName : String := "encoding-version"

def display (v : Version) : String :=
  toString v.major.toNat ++ "." ++ toString v.minor.toNat

/-- Reads the parts on both sides of the first point. -/
def parse (text : String) : Except VersionFault Version :=
  match Text.splitOnce '.' (Text.trimChars text.toList) with
  | none => .error (.format text)
  | some (major, minor) =>
      match Text.readUInt32 major with
      | none => .error (.component (String.ofList major))
      | some m =>
          match Text.readUInt32 minor with
          | none => .error (.component (String.ofList minor))
          | some n => .ok ⟨m, n⟩

def ofAttribute? (value : Option String) : Option Version :=
  match value with
  | none => none
  | some text =>
      if Text.allBlank text then none
      else
        match parse text with
        | .ok v => some v
        | .error _ => none

def compare (v w : Version) : Ordering :=
  (Ord.compare v.major.toNat w.major.toNat).then (Ord.compare v.minor.toNat w.minor.toNat)

end Version
end FlowConfig
