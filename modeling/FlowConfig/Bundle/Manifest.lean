import FlowConfig.Bundle.Registry
import FlowConfig.Json.Shape

/-!
# Manifests

A manifest lists the installed bundles.  It is an object with the member
`bundles`, or a list of that member's value alone; without it no bundles are
installed.  A bundle names its coordinate among members of any other kind, which
are judged when the bundle ends; the types it provides may be left out.
-/

namespace FlowConfig
namespace Manifest

open Json (Reader MemberReader)

/-- The members of a bundle read so far: its types, and the others, latest
first, with their values where those are texts. -/
structure BundleDraft where
  types : Option (List String)
  others : List (String × Option String)

def BundleDraft.empty : BundleDraft := ⟨none, []⟩

def BundleDraft.sole? (d : BundleDraft) (key : String) : Option String :=
  match d.others.filter fun m => m.1 == key with
  | [(_, some value)] => some value
  | _ => none

def BundleDraft.finish? (d : BundleDraft) : Option Bundle :=
  match d.sole? "group", d.sole? "artifact", d.sole? "version" with
  | some group, some artifact, some version =>
      some ((Bundle.new ⟨group, artifact, version⟩).withTypes (d.types.getD []))
  | _, _, _ => none

/-- The brackets that the value of a bundle's member may open, inside the
manifest, its list and the bundle. -/
def memberRoom : Nat := Json.nestingLimit - 3

def bundleMember : MemberReader BundleDraft := fun d key =>
  if key = "types" then
    Json.once d.types ((Reader.list Reader.text).map fun types => { d with types := some types })
  else
    .ok ((Reader.any memberRoom).map fun value => { d with others := (key, value) :: d.others })

def bundle : Reader Bundle :=
  (Reader.object bundleMember BundleDraft.empty).filterMap BundleDraft.finish?

def bundles : Reader (Option (List Bundle)) :=
  (Reader.list bundle).map some

def member : MemberReader (Option (List Bundle)) := fun given key =>
  if key = "bundles" then Json.once given bundles
  else .ok (Reader.skipped given)

def reader : Reader (List Bundle) :=
  (Reader.record member [fun _ => bundles] none).map fun given => given.getD []

def parse (input : Bytes) : Except Json.Fault (List Bundle) :=
  reader.readAll input

end Manifest
end FlowConfig
