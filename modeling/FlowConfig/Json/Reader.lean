import FlowConfig.Bytes

/-!
# Reading JSON

Settings and manifests are JSON.  They are read from left to right, and the
first problem met decides the outcome: a text is malformed, it ends too early,
or it is well formed so far and does not have the wanted shape.  Every reader
consumes at least one byte, which is what lets lists of items be read.
-/

namespace FlowConfig
namespace Json

inductive Fault where
  | malformed
  | mismatched
  | ended
deriving DecidableEq, Repr

structure Reader (A : Type) where
  read : Bytes -> Except Fault (A × Bytes)
  consumes : forall {input rest : Bytes} {a : A},
    read input = .ok (a, rest) -> rest.length < input.length

def skipSpaces (input : Bytes) : Bytes :=
  input.dropWhile Ascii.isSpace

theorem length_skipSpaces_le (input : Bytes) :
    (skipSpaces input).length ≤ input.length := by
  induction input with
  | nil => simp [skipSpaces]
  | cons b rest ih =>
      cases hb : Ascii.isSpace b with
      | true =>
          have hskip : skipSpaces (b :: rest) = skipSpaces rest := by
            simp [skipSpaces, hb]
          rw [hskip, List.length_cons]
          omega
      | false => simp [skipSpaces, hb]

theorem length_of_skipSpaces_eq_cons {input rest : Bytes} {b : UInt8}
    (h : skipSpaces input = b :: rest) :
    rest.length < input.length := by
  have hle := length_skipSpaces_le input
  rw [h, List.length_cons] at hle
  omega

/-- Reads the rest of a word whose first letter was read. -/
def readWord (word : Bytes) (input : Bytes) : Except Fault Bytes :=
  match word, input with
  | [], _ => .ok input
  | _ :: _, [] => .error .ended
  | w :: word, b :: rest => if b = w then readWord word rest else .error .malformed

theorem length_of_readWord {word input rest : Bytes} (h : readWord word input = .ok rest) :
    rest.length ≤ input.length := by
  induction word generalizing input with
  | nil =>
      simp only [readWord, Except.ok.injEq] at h
      simp [h]
  | cons w word ih =>
      cases input with
      | nil => simp [readWord] at h
      | cons b tail =>
          simp only [readWord] at h
          split at h
          · have hle := ih h
            rw [List.length_cons]
            omega
          · cases h

/-- The text is used up apart from spaces. -/
def finished (input : Bytes) : Bool :=
  (skipSpaces input).isEmpty

def Reader.readAll {A : Type} (r : Reader A) (input : Bytes) : Except Fault A :=
  match r.read input with
  | .error fault => .error fault
  | .ok (a, rest) => if finished rest then .ok a else .error .malformed

end Json
end FlowConfig
