import FlowConfig.Json.Value

/-!
# Values of a given shape

Readers for the shapes that settings and manifests are made of.  A scalar of the
wrong kind is read to its end before it is refused, a list or an object at its
bracket.
-/

namespace FlowConfig
namespace Json

variable {A B State : Type}

def nestingLimit : Nat := 127

def mismatch (input : Bytes) : Fault :=
  match input with
  | [] => .ended
  | b :: _ =>
      match opening? b with
      | some _ => .mismatched
      | none =>
          match readScalar input with
          | .error fault => fault
          | .ok _ => .mismatched

/-!
# Scalars
-/

def readKind (kind : Scalar -> Option A) (input : Bytes) : Except Fault (A × Bytes) :=
  match opening? ((skipSpaces input).headD Ascii.space) with
  | some _ => .error .mismatched
  | none =>
      match readScalar (skipSpaces input) with
      | .error fault => .error fault
      | .ok (scalar, rest) =>
          match kind scalar with
          | some a => .ok (a, rest)
          | none => .error .mismatched

theorem length_of_readKind {kind : Scalar -> Option A} {input rest : Bytes} {a : A}
    (h : readKind kind input = .ok (a, rest)) :
    rest.length < input.length := by
  unfold readKind at h
  split at h
  · cases h
  · split at h
    · cases h
    · next hread =>
        have hlt := length_of_readScalar hread
        have hle := length_skipSpaces_le input
        split at h
        · simp only [Except.ok.injEq, Prod.mk.injEq] at h
          rw [← h.right]
          omega
        · cases h

namespace Reader

def ofKind (kind : Scalar -> Option A) : Reader A :=
  ⟨readKind kind, length_of_readKind⟩

def text : Reader String :=
  ofKind fun
    | .text s => some s
    | _ => none

def flag : Reader Bool :=
  ofKind fun
    | .bool b => some b
    | _ => none

def uint32 : Reader UInt32 :=
  ofKind fun
    | .natural n => if n < UInt32.size then some (UInt32.ofNat n) else none
    | _ => none

def optionalText : Reader (Option String) :=
  ofKind fun
    | .null => some none
    | .text s => some (some s)
    | _ => none

/-- A value that is passed over and changes nothing. -/
def skipped (a : A) : Reader A where
  read input := (skipValue input).map fun rest => (a, rest)
  consumes := by
    intro input rest b h
    cases hskip : skipValue input with
    | error fault => simp [hskip, Except.map] at h
    | ok r =>
        simp only [hskip, Except.map, Except.ok.injEq, Prod.mk.injEq] at h
        rw [← h.right]
        exact length_of_skipValue hskip

/-- Any value, of which only a text is kept. -/
def any (room : Nat) : Reader (Option String) :=
  ⟨readAny room, length_of_readAny⟩

def map (f : A -> B) (r : Reader A) : Reader B where
  read input :=
    match r.read input with
    | .error fault => .error fault
    | .ok (a, rest) => .ok (f a, rest)
  consumes := by
    intro input rest b h
    split at h
    · cases h
    · next hread =>
        have hlt := r.consumes hread
        simp only [Except.ok.injEq, Prod.mk.injEq] at h
        rw [← h.right]
        exact hlt

end Reader

/-!
# Items between brackets

Items are separated by commas.  Each is read with the state left by those before
it.
-/

def readItems (closing : UInt8) (item : State -> Reader State) (first : Bool)
    (state : State) (input : Bytes) : Except Fault (State × Bytes) :=
  match _h : skipSpaces input with
  | [] => .error .ended
  | b :: rest =>
      if b = closing then .ok (state, rest)
      else if first then
        match _hitem : (item state).read (b :: rest) with
        | .error fault => .error fault
        | .ok (state, rest) => readItems closing item false state rest
      else if b = Ascii.comma then
        match _hitem : (item state).read rest with
        | .error fault => .error fault
        | .ok (state, rest) => readItems closing item false state rest
      else .error .malformed
termination_by input.length
decreasing_by
  · have hle := length_skipSpaces_le input
    rw [_h] at hle
    have hlt := (item _).consumes _hitem
    omega
  · have h1 := length_of_skipSpaces_eq_cons _h
    have h2 := (item _).consumes _hitem
    omega

theorem length_of_readItems {closing : UInt8} {item : State -> Reader State} {first : Bool}
    {state final : State} {input rest : Bytes}
    (h : readItems closing item first state input = .ok (final, rest)) :
    rest.length < input.length := by
  fun_induction readItems closing item first state input with
  | case1 => cases h
  | case2 _ _ _ _ hskip =>
      simp only [Except.ok.injEq, Prod.mk.injEq] at h
      rw [← h.right]
      exact length_of_skipSpaces_eq_cons hskip
  | case3 => cases h
  | case4 state input _ _ hskip _ _ _ hitem ih =>
      have hrest := ih h
      have hle := length_skipSpaces_le input
      rw [hskip] at hle
      have hlt := (item state).consumes hitem
      omega
  | case5 => cases h
  | case6 _ state _ _ _ _ _ hitem hskip _ ih =>
      have hrest := ih h
      have h1 := length_of_skipSpaces_eq_cons hskip
      have h2 := (item state).consumes hitem
      omega
  | case7 => cases h

/-- A member of an object: its key chooses how its value is read, or refuses it
at once. -/
abbrev MemberReader (State : Type) := State -> String -> Except Fault (Reader State)

def once (given : Option A) (r : Reader State) : Except Fault (Reader State) :=
  match given with
  | some _ => .error .mismatched
  | none => .ok r

def readMember (member : MemberReader State) (state : State) (input : Bytes) :
    Except Fault (State × Bytes) :=
  match skipSpaces input with
  | [] => .error .ended
  | b :: rest =>
      if b = Ascii.doubleQuote then
        match readText rest with
        | .error fault => .error fault
        | .ok (key, rest) =>
            match member state key with
            | .error fault => .error fault
            | .ok reader =>
                match readColon rest with
                | .error fault => .error fault
                | .ok rest => reader.read rest
      else .error .malformed

theorem length_of_readMember {member : MemberReader State} {state final : State}
    {input rest : Bytes} (h : readMember member state input = .ok (final, rest)) :
    rest.length < input.length := by
  unfold readMember at h
  split at h
  · cases h
  · next hskip =>
      split at h
      · split at h
        · cases h
        · next hkey =>
            split at h
            · cases h
            · next reader _ =>
                split at h
                · cases h
                · next hcolon =>
                    have h1 := length_of_skipSpaces_eq_cons hskip
                    have h2 := length_of_readText hkey
                    have h3 := length_of_readColon hcolon
                    have h4 := reader.consumes h
                    omega
      · cases h

namespace Reader

def member (read : MemberReader State) (state : State) : Reader State :=
  ⟨readMember read state, length_of_readMember⟩

end Reader

def readListItems (item : Reader A) (input : Bytes) : Except Fault (List A × Bytes) :=
  match readItems Ascii.closeBracket (fun before => item.map (· :: before)) true [] input with
  | .error fault => .error fault
  | .ok (before, rest) => .ok (before.reverse, rest)

def readMembers (member : MemberReader State) (state : State) (input : Bytes) :
    Except Fault (State × Bytes) :=
  readItems Ascii.closeBrace (Reader.member member) true state input

/-- Values of a list that stand for the members of an object in a fixed order.
Values may be missing at the end; there may not be more of them than readers. -/
def readFields (first : Bool) (fields : List (State -> Reader State)) (state : State)
    (input : Bytes) : Except Fault (State × Bytes) :=
  match fields, skipSpaces input with
  | _, [] => .error .ended
  | [], b :: rest => if b = Ascii.closeBracket then .ok (state, rest) else .error .malformed
  | field :: fields, b :: rest =>
      if b = Ascii.closeBracket then .ok (state, rest)
      else if !first && b ≠ Ascii.comma then .error .malformed
      else
        match (field state).read (if first then b :: rest else rest) with
        | .error fault => .error fault
        | .ok (state, rest) => readFields false fields state rest

theorem length_of_readFields {first : Bool} {fields : List (State -> Reader State)}
    {state final : State} {input rest : Bytes}
    (h : readFields first fields state input = .ok (final, rest)) :
    rest.length < input.length := by
  induction fields generalizing first state input with
  | nil =>
      unfold readFields at h
      split at h
      · cases h
      · next hskip =>
          split at h
          · simp only [Except.ok.injEq, Prod.mk.injEq] at h
            rw [← h.right]
            exact length_of_skipSpaces_eq_cons hskip
          · cases h
      · next heq _ => cases heq
  | cons field fields ih =>
      unfold readFields at h
      split at h
      · cases h
      · next heq _ => cases heq
      · next heq hskip =>
          have h1 := length_of_skipSpaces_eq_cons hskip
          have hle := length_skipSpaces_le input
          rw [hskip] at hle
          split at h
          · simp only [Except.ok.injEq, Prod.mk.injEq] at h
            rw [← h.right]
            exact h1
          · split at h
            · cases h
            · split at h
              · cases h
              · next hread =>
                  cases heq
                  have h2 := (field state).consumes hread
                  have h3 := ih h
                  split at h2 <;> omega

/-!
# Lists, objects and records
-/

def readBracketed (list object : Bytes -> Except Fault (A × Bytes)) (input : Bytes) :
    Except Fault (A × Bytes) :=
  match skipSpaces input with
  | [] => .error .ended
  | b :: rest =>
      if b = Ascii.openBracket then list rest
      else if b = Ascii.openBrace then object rest
      else .error (mismatch (b :: rest))

theorem length_of_readBracketed {list object : Bytes -> Except Fault (A × Bytes)}
    (hlist : forall {input rest : Bytes} {a : A},
      list input = .ok (a, rest) -> rest.length < input.length)
    (hobject : forall {input rest : Bytes} {a : A},
      object input = .ok (a, rest) -> rest.length < input.length)
    {input rest : Bytes} {a : A} (h : readBracketed list object input = .ok (a, rest)) :
    rest.length < input.length := by
  unfold readBracketed at h
  split at h
  · cases h
  · next hskip =>
      have hlt := length_of_skipSpaces_eq_cons hskip
      split at h
      · have hrest := hlist h
        omega
      · split at h
        · have hrest := hobject h
          omega
        · cases h

def refuse (_ : Bytes) : Except Fault (A × Bytes) :=
  .error .mismatched

theorem length_of_refuse {input rest : Bytes} {a : A} (h : refuse input = .ok (a, rest)) :
    rest.length < input.length := by
  cases h

theorem length_of_readListItems {item : Reader A} {input rest : Bytes} {items : List A}
    (h : readListItems item input = .ok (items, rest)) :
    rest.length < input.length := by
  unfold readListItems at h
  split at h
  · cases h
  · next hitems =>
      simp only [Except.ok.injEq, Prod.mk.injEq] at h
      rw [← h.right]
      exact length_of_readItems hitems

namespace Reader

def list (item : Reader A) : Reader (List A) :=
  ⟨readBracketed (readListItems item) refuse,
    length_of_readBracketed length_of_readListItems length_of_refuse⟩

def object (member : MemberReader State) (state : State) : Reader State :=
  ⟨readBracketed refuse (readMembers member state),
    length_of_readBracketed length_of_refuse length_of_readItems⟩

def record (member : MemberReader State) (fields : List (State -> Reader State))
    (state : State) : Reader State :=
  ⟨readBracketed (readFields true fields state) (readMembers member state),
    length_of_readBracketed length_of_readFields length_of_readItems⟩

def filterMap (f : A -> Option B) (r : Reader A) : Reader B where
  read input :=
    match r.read input with
    | .error fault => .error fault
    | .ok (a, rest) =>
        match f a with
        | some b => .ok (b, rest)
        | none => .error .mismatched
  consumes := by
    intro input rest b h
    split at h
    · cases h
    · next hread =>
        have hlt := r.consumes hread
        split at h
        · simp only [Except.ok.injEq, Prod.mk.injEq] at h
          rw [← h.right]
          exact hlt
        · cases h

end Reader

end Json
end FlowConfig
