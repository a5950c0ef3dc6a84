import FlowConfig.Gzip.Checksum
import FlowConfig.Gzip.Codes
import Std.Data.HashMap

/-!
# Deflating

At level zero content is stored as it is.  At higher levels it is written in
tokens with the fixed codes.  For every place the latest earlier places that
begin with the same three bytes are tried for a copy, as many of them as the
level says.
-/

namespace FlowConfig
namespace Gzip

/-!
# Finding copies
-/

def leastCopy : Nat := 3
def longestCopy : Nat := 258
def farthestCopy : Nat := 32768

/-- How many bytes agree from two places on, up to a limit. -/
def commonLength (data : Array UInt8) (i j : Nat) : Nat -> Nat
  | 0 => 0
  | limit + 1 =>
      match data[i]?, data[j]? with
      | some a, some b => if a = b then commonLength data (i + 1) (j + 1) limit + 1 else 0
      | _, _ => 0

/-- Places by the three bytes that begin there, latest first. -/
abbrev Places := Std.HashMap Nat (List Nat)

def placeKey (data : Array UInt8) (i : Nat) : Nat :=
  let at' (k : Nat) : Nat := (data[k]?.getD 0).toNat
  (at' i * 256 + at' (i + 1)) * 256 + at' (i + 2)

def addPlace (effort : Nat) (data : Array UInt8) (places : Places) (i : Nat) : Places :=
  let key := placeKey data i
  places.insert key (i :: ((places.getD key []).take (effort - 1)))

def addPlaces (effort : Nat) (data : Array UInt8) (places : Places) (i count : Nat) : Places :=
  (List.range' i count).foldl (addPlace effort data) places

def bestCopy (data : Array UInt8) (i : Nat) (candidates : List Nat) : Nat × Nat :=
  candidates.foldl (fun best j =>
    let length := commonLength data i j longestCopy
    if best.1 < length && j < i && i - j ≤ farthestCopy then (length, i - j) else best) (0, 0)

/-- The tokens for the data from place `i` on, after those in `before`, which
are latest first. -/
def tokensFrom (effort : Nat) (data : Array UInt8) (places : Places) (i : Nat)
    (before : List Token) : List Token :=
  if h : i < data.size then
    let (length, distance) := bestCopy data i (places.getD (placeKey data i) [])
    if leastCopy ≤ length then
      tokensFrom effort data (addPlaces effort data places i length) (i + length)
        (.copy length distance :: before)
    else
      tokensFrom effort data (addPlace effort data places i) (i + 1) (.literal data[i] :: before)
  else before.reverse
termination_by data.size - i
decreasing_by
  · simp only [leastCopy] at *
    omega
  · omega

def tokens (effort : Nat) (data : Array UInt8) : List Token :=
  tokensFrom effort data ∅ 0 []

/-!
# Writing tokens
-/

/-- The index of the range that holds a number: the last one that does not begin
after it. -/
def rangeIndex (table : Array Range) (n : Nat) : Nat :=
  (table.toList.takeWhile fun r => r.base ≤ n).length - 1

def extraBits (table : Array Range) (index n : Nat) : List Bool :=
  match table[index]? with
  | some range => numberBits range.extraBits (n - range.base)
  | none => []

def words (code : Code) (count : Nat) : Array (List Bool) :=
  ((List.range count).map fun symbol => (code.tree.word? symbol).getD []).toArray

def literalWords : Array (List Bool) := words fixedCodes.literals 288
def distanceWords : Array (List Bool) := words fixedCodes.distances 32

def literalWord (symbol : Nat) : List Bool :=
  literalWords[symbol]?.getD []

def distanceWord (symbol : Nat) : List Bool :=
  distanceWords[symbol]?.getD []

def Token.bits : Token -> List Bool
  | .literal b => literalWord b.toNat
  | .copy length distance =>
      let i := rangeIndex lengthRanges length
      let j := rangeIndex distanceRanges distance
      literalWord (endOfBlock + 1 + i) ++ extraBits lengthRanges i length
        ++ distanceWord j ++ extraBits distanceRanges j distance

/-- The head of a block: whether it is the last one, and its kind. -/
def blockHead (last : Bool) (kind : Nat) : List Bool :=
  last :: numberBits 2 kind

def tokenBlock (ts : List Token) : Bytes :=
  pack (blockHead true 1 ++ ts.flatMap Token.bits ++ literalWord endOfBlock)

/-!
# Stored blocks
-/

def longestStored : Nat := 0xFFFF

def storedBlock (last : Bool) (content : Bytes) : Bytes :=
  pack (blockHead last 0) ++ littleEndian 2 content.length
    ++ littleEndian 2 (0xFFFF - content.length) ++ content

/-- Stores content in as many blocks as it takes, at least one. -/
def storedBlocks (content : Bytes) : Bytes :=
  if _h : content.length ≤ longestStored then storedBlock true content
  else storedBlock false (content.take longestStored)
    ++ storedBlocks (content.drop longestStored)
termination_by content.length
decreasing_by
  simp only [longestStored, List.length_drop] at *
  omega

def deflate (level : Nat) (content : Bytes) : Bytes :=
  if level = 0 then storedBlocks content
  else tokenBlock (tokens level content.toArray)

end Gzip
end FlowConfig
