/-!
# Faults of compressed files

What can be wrong with a gzip file: its header, its compressed body, its
checksums, that it ends too early, or that there is no reading from it.
-/

namespace FlowConfig
namespace Gzip

inductive Fault where
  | ended
  | header
  | fieldTooLong
  | checksum
  | corrupt
  | incomplete
  /-- The bytes of the file could not be read. -/
  | unreadable (text : String)
deriving DecidableEq, Repr

namespace Fault

def message : Fault -> String
  | .ended => "unexpected end of file"
  | .header => "invalid gzip header"
  | .fieldTooLong => "gzip header field too long"
  | .checksum => "corrupt gzip stream does not have a matching checksum"
  | .corrupt => "corrupt deflate stream"
  | .incomplete => "incomplete deflate stream"
  | .unreadable text => text

/-- The file stops before its format allows it to. -/
def isEnd : Fault -> Bool
  | .ended => true
  | .incomplete => true
  | _ => false

end Fault
end Gzip
end FlowConfig
