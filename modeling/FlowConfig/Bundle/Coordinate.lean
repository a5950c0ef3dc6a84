/-!
# Bundle coordinates

An extension bundle is named by its group, its artifact and its version.
-/

namespace FlowConfig

structure Coordinate where
  group : String
  artifact : String
  version : String
deriving DecidableEq, Repr

namespace Coordinate

def display (c : Coordinate) : String :=
  c.group ++ ":" ++ c.artifact ++ ":" ++ c.version

/-- Coordinates are ordered field by field, texts by their characters. -/
def compare (c d : Coordinate) : Ordering :=
  (Ord.compare c.group d.group).then
    ((Ord.compare c.artifact d.artifact).then (Ord.compare c.version d.version))

end Coordinate
end FlowConfig
