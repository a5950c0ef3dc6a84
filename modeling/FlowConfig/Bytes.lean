/-!
# Bytes

Files and documents arrive as lists of bytes.  This module fixes that view and
names the ASCII bytes that carry meaning in the formats read by the library.
-/

namespace FlowConfig

abbrev Bytes := List UInt8

def Bytes.ofString (s : String) : Bytes :=
  s.toUTF8.toList

/-!
# Named ASCII bytes
-/

namespace Ascii

@[match_pattern] abbrev tab : UInt8 := 9
@[match_pattern] abbrev lineFeed : UInt8 := 10
@[match_pattern] abbrev carriageReturn : UInt8 := 13
@[match_pattern] abbrev space : UInt8 := 32
@[match_pattern] abbrev bang : UInt8 := 33
@[match_pattern] abbrev doubleQuote : UInt8 := 34
@[match_pattern] abbrev apostrophe : UInt8 := 39
@[match_pattern] abbrev plus : UInt8 := 43
@[match_pattern] abbrev comma : UInt8 := 44
@[match_pattern] abbrev minus : UInt8 := 45
@[match_pattern] abbrev dot : UInt8 := 46
@[match_pattern] abbrev slash : UInt8 := 47
@[match_pattern] abbrev zero : UInt8 := 48
@[match_pattern] abbrev nine : UInt8 := 57
@[match_pattern] abbrev colon : UInt8 := 58
@[match_pattern] abbrev lessThan : UInt8 := 60
@[match_pattern] abbrev equals : UInt8 := 61
@[match_pattern] abbrev greaterThan : UInt8 := 62
@[match_pattern] abbrev questionMark : UInt8 := 63
@[match_pattern] abbrev openBracket : UInt8 := 91
@[match_pattern] abbrev backslash : UInt8 := 92
@[match_pattern] abbrev closeBracket : UInt8 := 93
@[match_pattern] abbrev openBrace : UInt8 := 123
@[match_pattern] abbrev closeBrace : UInt8 := 125

/-- The four bytes that separate tokens in markup and in JSON. -/
def isSpace (b : UInt8) : Bool :=
  b == space || b == tab || b == carriageReturn || b == lineFeed

def isDigit (b : UInt8) : Bool :=
  zero ≤ b && b ≤ nine

end Ascii

end FlowConfig
