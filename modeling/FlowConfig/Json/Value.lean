import FlowConfig.Json.Scalar

/-!
# Values of any shape

Values whose shape does not matter are walked to their end.  The brackets that
are open are kept on a list.  A full reading allows only so many of them, a
loose one any number.
-/

namespace FlowConfig
namespace Json

inductive Bracket where
  | list
  | object
deriving DecidableEq, Repr

/-- How closely a walk looks, and how many brackets it may open, if limited. -/
structure Walk where
  scrutiny : Scrutiny
  room : Option Nat
deriving DecidableEq, Repr

namespace Walk

def allows (w : Walk) (brackets : List Bracket) : Bool :=
  match w.room with
  | some n => brackets.length < n
  | none => true

def scalar (w : Walk) (input : Bytes) : Except Fault Bytes :=
  match w.scrutiny with
  | .full => (readScalar input).map Prod.snd
  | .loose => skipScalar input

def key (w : Walk) (input : Bytes) : Except Fault Bytes :=
  match w.scrutiny with
  | .full => (readText input).map Prod.snd
  | .loose => skipText input

theorem length_of_scalar {w : Walk} {input rest : Bytes} (h : w.scalar input = .ok rest) :
    rest.length < input.length := by
  unfold scalar at h
  split at h
  · cases hread : readScalar input with
    | error fault => simp [hread, Except.map] at h
    | ok r =>
        obtain ⟨a, r⟩ := r
        simp only [hread, Except.map, Except.ok.injEq] at h
        rw [← h]
        exact length_of_readScalar hread
  · exact length_of_skipScalar h

theorem length_of_key {w : Walk} {input rest : Bytes} (h : w.key input = .ok rest) :
    rest.length < input.length := by
  unfold key at h
  split at h
  · cases hread : readText input with
    | error fault => simp [hread, Except.map] at h
    | ok r =>
        obtain ⟨a, r⟩ := r
        simp only [hread, Except.map, Except.ok.injEq] at h
        rw [← h]
        exact length_of_readText hread
  · exact length_of_skipText h

end Walk

def opening? (b : UInt8) : Option Bracket :=
  if b = Ascii.openBracket then some .list
  else if b = Ascii.openBrace then some .object
  else none

def Bracket.closing : Bracket -> UInt8
  | .list => Ascii.closeBracket
  | .object => Ascii.closeBrace

def readColon (input : Bytes) : Except Fault Bytes :=
  match skipSpaces input with
  | [] => .error .ended
  | b :: rest => if b = Ascii.colon then .ok rest else .error .malformed

theorem length_of_readColon {input rest : Bytes} (h : readColon input = .ok rest) :
    rest.length < input.length := by
  unfold readColon at h
  split at h
  · cases h
  · next hskip =>
      split at h
      · simp only [Except.ok.injEq] at h
        rw [← h]
        exact length_of_skipSpaces_eq_cons hskip
      · cases h

/-- What a walk meets next: a value; the first item of a bracket or its end; the
key of a member; or what follows an item. -/
inductive Place where
  | value
  | first
  | key
  | after
deriving DecidableEq, Repr

def Place.rank : Place -> Nat
  | .first => 1
  | _ => 0

def Bracket.itemPlace : Bracket -> Place
  | .list => .value
  | .object => .key

def walk (w : Walk) (place : Place) (brackets : List Bracket) (input : Bytes) :
    Except Fault Bytes :=
  match place, brackets with
  | .after, [] => .ok input
  | .first, [] => .error .malformed
  | .value, _ =>
      match _h : skipSpaces input with
      | [] => .error .ended
      | b :: rest =>
          match opening? b with
          | some bracket =>
              if w.allows brackets then walk w .first (bracket :: brackets) rest
              else .error .malformed
          | none =>
              match _hscalar : w.scalar (b :: rest) with
              | .error fault => .error fault
              | .ok rest => walk w .after brackets rest
  | .key, _ =>
      match _h : skipSpaces input with
      | [] => .error .ended
      | b :: rest =>
          if b = Ascii.doubleQuote then
            match _hkey : w.key rest with
            | .error fault => .error fault
            | .ok rest =>
                match _hcolon : readColon rest with
                | .error fault => .error fault
                | .ok rest => walk w .value brackets rest
          else .error .malformed
  | .first, bracket :: outer =>
      match _h : skipSpaces input with
      | [] => .error .ended
      | b :: rest =>
          if b = bracket.closing then walk w .after outer rest
          else walk w bracket.itemPlace (bracket :: outer) input
  | .after, bracket :: outer =>
      match _h : skipSpaces input with
      | [] => .error .ended
      | b :: rest =>
          if b = bracket.closing then walk w .after outer rest
          else if b = Ascii.comma then walk w bracket.itemPlace (bracket :: outer) rest
          else .error .malformed
termination_by (input.length, place.rank)
decreasing_by
  · have hlt := length_of_skipSpaces_eq_cons _h
    exact Prod.Lex.left _ _ hlt
  · have hlt := Walk.length_of_scalar _hscalar
    have hle := length_skipSpaces_le input
    rw [_h] at hle
    exact Prod.Lex.left _ _ (by omega)
  · have h1 := length_of_skipSpaces_eq_cons _h
    have h2 := Walk.length_of_key _hkey
    have h3 := length_of_readColon _hcolon
    exact Prod.Lex.left _ _ (by omega)
  · have hlt := length_of_skipSpaces_eq_cons _h
    exact Prod.Lex.left _ _ hlt
  · cases bracket <;> exact Prod.Lex.right _ (by decide)
  · have hlt := length_of_skipSpaces_eq_cons _h
    exact Prod.Lex.left _ _ hlt
  · have hlt := length_of_skipSpaces_eq_cons _h
    exact Prod.Lex.left _ _ hlt

theorem length_of_walk {w : Walk} {place : Place} {brackets : List Bracket}
    {input rest : Bytes} (h : walk w place brackets input = .ok rest) :
    rest.length ≤ input.length ∧ (place ≠ .after -> rest.length < input.length) := by
  fun_induction walk w place brackets input with
  | case1 =>
      simp only [Except.ok.injEq] at h
      simp [h]
  | case2 => cases h
  | case3 => cases h
  | case4 _ _ _ _ hskip _ _ hroom ih =>
      rw [if_pos hroom] at h
      have hrest := ih h
      have hlt := length_of_skipSpaces_eq_cons hskip
      exact ⟨by omega, fun _ => by omega⟩
  | case5 _ _ _ _ _ _ _ hroom =>
      rw [if_neg hroom] at h
      cases h
  | case6 => cases h
  | case7 _ input _ _ hskip _ _ hscalar ih =>
      have hrest := ih h
      have hlt := Walk.length_of_scalar hscalar
      have hle := length_skipSpaces_le input
      rw [hskip] at hle
      exact ⟨by omega, fun _ => by omega⟩
  | case8 => cases h
  | case9 => cases h
  | case10 => cases h
  | case11 _ _ _ _ hkey _ hcolon hskip ih =>
      have hrest := ih h
      have h1 := length_of_skipSpaces_eq_cons hskip
      have h2 := Walk.length_of_key hkey
      have h3 := length_of_readColon hcolon
      exact ⟨by omega, fun _ => by omega⟩
  | case12 => cases h
  | case13 => cases h
  | case14 _ _ _ _ hskip ih =>
      have hrest := ih h
      have hlt := length_of_skipSpaces_eq_cons hskip
      exact ⟨by omega, fun _ => by omega⟩
  | case15 _ bracket _ _ _ _ _ ih =>
      have hrest := ih h
      have hplace : bracket.itemPlace ≠ Place.after := by cases bracket <;> decide
      exact ⟨hrest.left, fun _ => hrest.right hplace⟩
  | case16 => cases h
  | case17 _ _ _ _ hskip ih =>
      have hrest := ih h
      have hlt := length_of_skipSpaces_eq_cons hskip
      exact ⟨by omega, fun hplace => absurd rfl hplace⟩
  | case18 _ bracket _ _ hskip _ ih =>
      have hrest := ih h
      have hlt := length_of_skipSpaces_eq_cons hskip
      exact ⟨by omega, fun hplace => absurd rfl hplace⟩
  | case19 => cases h

/-!
# Whole values
-/

def skipValue (input : Bytes) : Except Fault Bytes :=
  walk ⟨.loose, none⟩ .value [] input

theorem length_of_skipValue {input rest : Bytes} (h : skipValue input = .ok rest) :
    rest.length < input.length :=
  (length_of_walk h).right (by decide)

/-- A value looked at in full, with room for so many open brackets.  Of its
content only a text is kept. -/
def readAny (room : Nat) (input : Bytes) : Except Fault (Option String × Bytes) :=
  match skipSpaces input with
  | [] => .error .ended
  | b :: rest =>
      match opening? b with
      | some _ =>
          match walk ⟨.full, some room⟩ .value [] (b :: rest) with
          | .error fault => .error fault
          | .ok rest => .ok (none, rest)
      | none =>
          match readScalar (b :: rest) with
          | .error fault => .error fault
          | .ok (.text s, rest) => .ok (some s, rest)
          | .ok (_, rest) => .ok (none, rest)

theorem length_of_readAny {room : Nat} {input rest : Bytes} {s : Option String}
    (h : readAny room input = .ok (s, rest)) :
    rest.length < input.length := by
  unfold readAny at h
  split at h
  · cases h
  · next hskip =>
      have hle := length_skipSpaces_le input
      rw [hskip] at hle
      split at h
      · split at h
        · cases h
        · next hwalk =>
            have hlt := (length_of_walk hwalk).right (by decide)
            simp only [Except.ok.injEq, Prod.mk.injEq] at h
            rw [← h.right]
            omega
      · split at h
        · cases h
        · next hread =>
            have hlt := length_of_readScalar hread
            simp only [Except.ok.injEq, Prod.mk.injEq] at h
            rw [← h.right]
            omega
        · next hread =>
            have hlt := length_of_readScalar hread
            simp only [Except.ok.injEq, Prod.mk.injEq] at h
            rw [← h.right]
            omega

end Json
end FlowConfig
