import FlowConfig.Text.Numeral

/-!
# Simple types

The value spaces of attribute values and of text content.  All but strings
ignore surrounding blanks.
-/

namespace FlowConfig

inductive SimpleType where
  | string
  | integer
  | decimal
  | boolean
deriving DecidableEq, Repr

namespace SimpleType

def display : SimpleType -> String
  | .string => "string"
  | .integer => "integer"
  | .decimal => "decimal"
  | .boolean => "boolean"

def dropSign : List Char -> List Char
  | '+' :: rest => rest
  | '-' :: rest => rest
  | cs => cs

def isInteger (cs : List Char) : Bool :=
  let digits := dropSign cs
  !digits.isEmpty && digits.all Text.isAsciiDigit

/-- Digits with at most one point; one side of the point may be empty. -/
def isDecimal (cs : List Char) : Bool :=
  let digits := dropSign cs
  let (whole, fraction) := (Text.splitOnce '.' digits).getD (digits, [])
  !(whole.isEmpty && fraction.isEmpty)
    && whole.all Text.isAsciiDigit && fraction.all Text.isAsciiDigit

def isBoolean (cs : List Char) : Bool :=
  cs == ['t', 'r', 'u', 'e'] || cs == ['f', 'a', 'l', 's', 'e'] || cs == ['1'] || cs == ['0']

def accepts (kind : SimpleType) (value : String) : Bool :=
  let cs := Text.trimChars value.toList
  match kind with
  | .string => true
  | .integer => isInteger cs
  | .decimal => isDecimal cs
  | .boolean => isBoolean cs

end SimpleType
end FlowConfig
