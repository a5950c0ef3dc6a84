import FlowConfig.Json.Text

/-!
# JSON texts

How strings, lists and objects may be written: the characters of a string as they are or
escaped, items with any spaces around them, members of an object with any spaces around
the colon.  One value has many texts, and nothing is said here of how a text is read.
-/

namespace FlowConfig
namespace Json

variable {A V : Type}

def Blank (spaces : Bytes) : Prop :=
  forall b, b ∈ spaces -> Ascii.isSpace b = true

/-!
# Strings
-/

/-- The digits `0` to `9`, and `a` to `f` small or capital. -/
inductive HexDigit : UInt8 -> Nat -> Prop where
  | numeral {n : Nat} : n < 10 -> HexDigit (.ofNat (48 + n)) n
  | small {n : Nat} : 10 ≤ n -> n < 16 -> HexDigit (.ofNat (87 + n)) n
  | capital {n : Nat} : 10 ≤ n -> n < 16 -> HexDigit (.ofNat (55 + n)) n

inductive HexNumber : Bytes -> Nat -> Prop where
  | digits {a b c d : UInt8} {w x y z : Nat} : HexDigit a w -> HexDigit b x -> HexDigit c y ->
      HexDigit d z -> HexNumber [a, b, c, d] (((w * 16 + x) * 16 + y) * 16 + z)

def shortEscapes : List (UInt8 × Char) :=
  [(34, '"'), (92, '\\'), (47, '/'), (98, '\x08'), (102, '\x0c'), (110, '\n'), (114, '\r'),
    (116, '\t')]

/-- A character that is no control character, quote or backslash may stand for itself;
any character may be escaped by its number, one past `0xFFFF` by those of two
surrogates. -/
inductive WrittenChar : Char -> Bytes -> Prop where
  | plain {c : Char} : 32 ≤ c.toNat -> c ≠ '"' -> c ≠ '\\' ->
      WrittenChar c (String.utf8EncodeChar c)
  | short {letter : UInt8} {c : Char} : (letter, c) ∈ shortEscapes ->
      WrittenChar c [Ascii.backslash, letter]
  | number {c : Char} {digits : Bytes} : HexNumber digits c.toNat ->
      WrittenChar c (Ascii.backslash :: letterU :: digits)
  | surrogates {c : Char} {high low : Bytes} : 0x10000 ≤ c.toNat ->
      HexNumber high (0xD800 + (c.toNat - 0x10000) / 1024) ->
      HexNumber low (0xDC00 + (c.toNat - 0x10000) % 1024) ->
      WrittenChar c
        (Ascii.backslash :: letterU :: high ++ Ascii.backslash :: letterU :: low)

inductive WrittenChars : List Char -> Bytes -> Prop where
  | nil : WrittenChars [] []
  | cons {c : Char} {cs : List Char} {first rest : Bytes} : WrittenChar c first ->
      WrittenChars cs rest -> WrittenChars (c :: cs) (first ++ rest)

inductive WrittenText : String -> Bytes -> Prop where
  | quoted {s : String} {content : Bytes} : WrittenChars s.toList content ->
      WrittenText s (Ascii.doubleQuote :: content ++ [Ascii.doubleQuote])

/-!
# Lists and objects
-/

inductive Padded (item : A -> Bytes -> Prop) : A -> Bytes -> Prop where
  | spaces {a : A} {before text after : Bytes} : Blank before -> item a text -> Blank after ->
      Padded item a (before ++ text ++ after)

inductive Separated (item : A -> Bytes -> Prop) : List A -> Bytes -> Prop where
  | last {a : A} {text : Bytes} : item a text -> Separated item [a] text
  | comma {a : A} {as : List A} {first rest : Bytes} : item a first ->
      Separated item as rest -> Separated item (a :: as) (first ++ Ascii.comma :: rest)

inductive Enclosed (opening closing : UInt8) (item : A -> Bytes -> Prop) :
    List A -> Bytes -> Prop where
  | empty {spaces : Bytes} : Blank spaces ->
      Enclosed opening closing item [] (opening :: spaces ++ [closing])
  | items {as : List A} {text : Bytes} : Separated (Padded item) as text ->
      Enclosed opening closing item as (opening :: text ++ [closing])

def WrittenList (item : A -> Bytes -> Prop) : List A -> Bytes -> Prop :=
  Enclosed Ascii.openBracket Ascii.closeBracket item

inductive WrittenMember (value : V -> Bytes -> Prop) : String × V -> Bytes -> Prop where
  | colon {key : String} {v : V} {name before after text : Bytes} : WrittenText key name ->
      Blank before -> Blank after -> value v text ->
      WrittenMember value (key, v) (name ++ before ++ Ascii.colon :: after ++ text)

def WrittenObject (value : V -> Bytes -> Prop) : List (String × V) -> Bytes -> Prop :=
  Enclosed Ascii.openBrace Ascii.closeBrace (WrittenMember value)

end Json
end FlowConfig
