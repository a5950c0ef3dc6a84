import FlowConfig.Json.Shape
import FlowConfig.Proofs.Json.Text

/-!
# Reading lists and objects

A reader takes a text for a value if it reads the value off it, whatever spaces stand
before the text and whatever comes after.  Lists and objects are taken for what their
items make one after the other, in the order of the text, when each item is taken.
-/

namespace FlowConfig
namespace Json

variable {A B V State : Type}

/-!
# Spaces
-/

theorem skipSpaces_append {spaces : Bytes} (h : Blank spaces) (input : Bytes) :
    skipSpaces (spaces ++ input) = skipSpaces input :=
  List.dropWhile_append_of_pos h

theorem skipSpaces_cons {b : UInt8} (h : Ascii.isSpace b = false) (rest : Bytes) :
    skipSpaces (b :: rest) = b :: rest :=
  List.dropWhile_cons_of_neg (Bool.eq_false_iff.mp h)

theorem skipSpaces_eq_cons {spaces : Bytes} {b : UInt8} (hspaces : Blank spaces)
    (hb : Ascii.isSpace b = false) (rest : Bytes) :
    skipSpaces (spaces ++ b :: rest) = b :: rest := by
  rw [skipSpaces_append hspaces, skipSpaces_cons hb]

theorem skipSpaces_token {spaces : Bytes} {b : UInt8} (hspaces : Blank spaces)
    (hb : Ascii.isSpace b = false) (content rest : Bytes) :
    skipSpaces (spaces ++ b :: content ++ rest) = b :: (content ++ rest) := by
  rw [List.append_assoc, List.cons_append, skipSpaces_eq_cons hspaces hb]

theorem blank_nil : Blank [] := by
  intro b hb
  cases hb

/-!
# Taking a text for a value
-/

/-- The value is read off the text, whatever comes after it. -/
def Reader.Takes (r : Reader A) (text : Bytes) (a : A) : Prop :=
  forall spaces, Blank spaces -> forall rest, r.read (spaces ++ text ++ rest) = .ok (a, rest)

section

variable {r : Reader A} {text : Bytes} {a : A}

theorem takes_map (f : A -> B) (h : r.Takes text a) : (r.map f).Takes text (f a) := by
  intro spaces hspaces rest
  simp only [Reader.map, h spaces hspaces rest]

theorem takes_filterMap {f : A -> Option B} {b : B} (h : r.Takes text a) (hb : f a = some b) :
    (r.filterMap f).Takes text b := by
  intro spaces hspaces rest
  simp only [Reader.filterMap, h spaces hspaces rest, hb]

theorem readAll_of_takes (h : r.Takes text a) {before after : Bytes} (hbefore : Blank before)
    (hafter : Blank after) : r.readAll (before ++ text ++ after) = .ok a := by
  have hfinished : finished after = true := by
    have hskip := skipSpaces_append hafter []
    rw [List.append_nil] at hskip
    rw [finished, hskip]
    rfl
  rw [Reader.readAll, h before hbefore after]
  exact if_pos hfinished

end

/-!
# Strings
-/

section

variable {s : String} {text : Bytes}

theorem takes_text (h : WrittenText s text) : Reader.text.Takes text s := by
  rcases readText_of_writtenText h with ⟨content, rfl, hread⟩
  intro spaces hspaces rest
  show readKind _ _ = _
  rw [readKind, skipSpaces_token hspaces (by decide)]
  simp only [List.headD_cons, opening?, readScalar, (hread rest).left]
  rfl

theorem takes_any (room : Nat) (h : WrittenText s text) :
    (Reader.any room).Takes text (some s) := by
  rcases readText_of_writtenText h with ⟨content, rfl, hread⟩
  intro spaces hspaces rest
  show readAny room _ = _
  rw [readAny, skipSpaces_token hspaces (by decide)]
  simp only [opening?, readScalar, (hread rest).left]
  rfl

theorem walk_value_of_scalar {w : Walk} {brackets : List Bracket} {input tail rest : Bytes}
    {b : UInt8} (hskip : skipSpaces input = b :: tail) (hopening : opening? b = none)
    (hscalar : w.scalar (b :: tail) = .ok rest) :
    walk w .value brackets input = walk w .after brackets rest := by
  rw [walk]
  split
  · next heq => cases hskip.symm.trans heq
  · next heq =>
      cases hskip.symm.trans heq
      simp only [hopening]
      split
      · next hread => cases hscalar.symm.trans hread
      · next hread =>
          cases hscalar.symm.trans hread
          rfl

theorem takes_skipped (a : A) (h : WrittenText s text) : (Reader.skipped a).Takes text a := by
  rcases readText_of_writtenText h with ⟨content, rfl, hread⟩
  intro spaces hspaces rest
  have hscalar : Walk.scalar ⟨.loose, none⟩ (Ascii.doubleQuote :: (content ++ rest)) = .ok rest :=
    (hread rest).right
  have hskip := skipSpaces_token (b := Ascii.doubleQuote) hspaces (by decide) content rest
  show (skipValue _).map (fun rest => (a, rest)) = _
  rw [skipValue, walk_value_of_scalar hskip (by decide) hscalar, walk]
  rfl

end

/-!
# Items between brackets
-/

section

variable {closing : UInt8} {item : State -> Reader State} {state final : State}
  {input rest tail : Bytes}

theorem readItems_closing (hskip : skipSpaces input = closing :: rest) (first : Bool) :
    readItems closing item first state input = .ok (state, rest) := by
  rw [readItems]
  split
  · next heq => cases hskip.symm.trans heq
  · next heq =>
      cases hskip.symm.trans heq
      exact if_pos rfl

theorem readItems_first {b : UInt8} (hskip : skipSpaces input = b :: rest) (hb : b ≠ closing)
    (hitem : (item state).read (b :: rest) = .ok (final, tail)) :
    readItems closing item true state input = readItems closing item false final tail := by
  rw [readItems]
  split
  · next heq => cases hskip.symm.trans heq
  · next heq =>
      cases hskip.symm.trans heq
      rw [if_neg hb, if_pos rfl]
      split
      · next hread => cases hitem.symm.trans hread
      · next hread =>
          cases hitem.symm.trans hread
          rfl

theorem readItems_comma (hskip : skipSpaces input = Ascii.comma :: rest)
    (hcomma : Ascii.comma ≠ closing) (hitem : (item state).read rest = .ok (final, tail)) :
    readItems closing item false state input = readItems closing item false final tail := by
  rw [readItems]
  split
  · next heq => cases hskip.symm.trans heq
  · next heq =>
      cases hskip.symm.trans heq
      rw [if_neg hcomma, if_neg Bool.false_ne_true, if_pos rfl]
      split
      · next hread => cases hitem.symm.trans hread
      · next hread =>
          cases hitem.symm.trans hread
          rfl

end

/-- A text whose first byte shows that an item begins. -/
def Begins (closing : UInt8) (text : Bytes) : Prop :=
  exists b more, text = b :: more ∧ Ascii.isSpace b = false ∧ b ≠ closing

/-- Each item that the state admits is read off every text of it, and leads to the next
state. -/
structure ItemsTaken (closing : UInt8) (item : State -> Reader State)
    (written : A -> Bytes -> Prop) (next : State -> A -> Option State) : Prop where
  isSpace_closing : Ascii.isSpace closing = false
  comma_ne_closing : Ascii.comma ≠ closing
  begins : forall a text, written a text -> Begins closing text
  takes : forall state a final text, next state a = some final -> written a text ->
    (item state).Takes text final

/-- What stands before an item: nothing if it is the first one, else a comma. -/
inductive Lead : Bool -> Bytes -> Prop where
  | first : Lead true []
  | comma {spaces : Bytes} : Blank spaces -> Lead false (spaces ++ [Ascii.comma])

section

variable {closing opening : UInt8} {item : State -> Reader State} {written : A -> Bytes -> Prop}
  {next : State -> A -> Option State} {state final : State} {first : Bool} {lead text : Bytes}

theorem readItems_of_padded (htaken : ItemsTaken closing item written next)
    (hlead : Lead first lead) {a : A} (h : Padded written a text)
    (hnext : next state a = some final) :
    exists after, Blank after ∧ forall tail,
      readItems closing item first state (lead ++ text ++ tail) =
        readItems closing item false final (after ++ tail) := by
  cases h with
  | @spaces before inner after hbefore hinner hafter =>
      refine ⟨after, hafter, ?_⟩
      intro tail
      have htakes := htaken.takes state a final inner hnext hinner
      cases hlead with
      | first =>
          rcases htaken.begins a inner hinner with ⟨b, more, rfl, hspace, hne⟩
          have hskip := skipSpaces_eq_cons hbefore hspace (more ++ (after ++ tail))
          have hread := htakes [] blank_nil (after ++ tail)
          rw [List.nil_append, List.append_assoc, List.append_assoc, List.cons_append]
          exact readItems_first hskip hne hread
      | @comma spaces hspaces =>
          have hskip := skipSpaces_eq_cons hspaces (b := Ascii.comma) (by decide)
            (before ++ inner ++ (after ++ tail))
          have hread := htakes before hbefore (after ++ tail)
          have hinput : spaces ++ [Ascii.comma] ++ (before ++ inner ++ after) ++ tail =
              spaces ++ Ascii.comma :: (before ++ inner ++ (after ++ tail)) := by
            simp only [List.append_assoc, List.cons_append, List.nil_append]
          rw [hinput]
          exact readItems_comma hskip htaken.comma_ne_closing hread

theorem readItems_of_separated (htaken : ItemsTaken closing item written next) {as : List A}
    (h : Separated (Padded written) as text) (hlead : Lead first lead)
    (hnext : as.foldlM next state = some final) :
    exists after, Blank after ∧ forall tail,
      readItems closing item first state (lead ++ text ++ tail) =
        readItems closing item false final (after ++ tail) := by
  -- The spaces after an item are left to the reader of the next comma or bracket.
  induction h generalizing first lead state with
  | @last a text hlast =>
      have hlastnext : next state a = some final := by
        rw [List.foldlM_cons] at hnext
        rcases Option.bind_eq_some_iff.mp hnext with ⟨mid, hmid, heq⟩
        cases heq
        exact hmid
      exact readItems_of_padded htaken hlead hlast hlastnext
  | @comma a as text more hfirst _ ih =>
      rw [List.foldlM_cons] at hnext
      rcases Option.bind_eq_some_iff.mp hnext with ⟨mid, hmid, hrest⟩
      rcases readItems_of_padded htaken hlead hfirst hmid with ⟨between, hbetween, hstep⟩
      rcases ih (Lead.comma hbetween) hrest with ⟨after, hafter, hrun⟩
      refine ⟨after, hafter, ?_⟩
      intro tail
      have hinput : lead ++ (text ++ Ascii.comma :: more) ++ tail =
          lead ++ text ++ (Ascii.comma :: more ++ tail) := by
        simp only [List.append_assoc]
      have hbehind : between ++ (Ascii.comma :: more ++ tail) =
          between ++ [Ascii.comma] ++ more ++ tail := by
        simp only [List.append_assoc, List.cons_append, List.nil_append]
      rw [hinput, hstep, hbehind, hrun]

/-- Items between brackets are read one after the other, up to the closing bracket. -/
theorem readItems_of_enclosed (htaken : ItemsTaken closing item written next) {as : List A}
    (h : Enclosed opening closing written as text)
    (hnext : as.foldlM next state = some final) :
    exists content, text = opening :: content ∧ forall rest,
      readItems closing item true state (content ++ rest) = .ok (final, rest) := by
  cases h with
  | @empty spaces hspaces =>
      cases hnext
      refine ⟨spaces ++ [closing], rfl, ?_⟩
      intro rest
      rw [List.append_assoc]
      exact readItems_closing (skipSpaces_eq_cons hspaces htaken.isSpace_closing rest) true
  | @items _ inner hitems =>
      rcases readItems_of_separated htaken hitems Lead.first hnext with ⟨after, hafter, hrun⟩
      refine ⟨inner ++ [closing], rfl, ?_⟩
      intro rest
      have hclosing := skipSpaces_eq_cons hafter htaken.isSpace_closing rest
      rw [List.append_assoc]
      exact (hrun _).trans (readItems_closing hclosing false)

end

/-!
# Lists
-/

section

variable {list object : Bytes -> Except Fault (A × Bytes)} {spaces : Bytes}

theorem readBracketed_openBracket (hspaces : Blank spaces) (content rest : Bytes) :
    readBracketed list object (spaces ++ Ascii.openBracket :: content ++ rest) =
      list (content ++ rest) := by
  rw [readBracketed, skipSpaces_token hspaces (by decide)]
  exact if_pos rfl

theorem readBracketed_openBrace (hspaces : Blank spaces) (content rest : Bytes) :
    readBracketed list object (spaces ++ Ascii.openBrace :: content ++ rest) =
      object (content ++ rest) := by
  have hne : Ascii.openBrace ≠ Ascii.openBracket := by decide
  rw [readBracketed, skipSpaces_token hspaces (by decide)]
  exact (if_neg hne).trans (if_pos rfl)

end

theorem foldlM_cons_map (f : A -> B) (as : List A) (before : List B) :
    as.foldlM (fun before a => some (f a :: before)) before =
      some ((as.map f).reverse ++ before) := by
  induction as generalizing before with
  | nil => rfl
  | cons a rest ih =>
      rw [List.foldlM_cons, Option.bind_eq_bind, Option.bind_some, ih, List.map_cons,
        List.reverse_cons, List.append_assoc, List.singleton_append]

theorem takes_list {item : Reader B} {written : A -> Bytes -> Prop} {f : A -> B}
    (hbegins : forall a text, written a text -> Begins Ascii.closeBracket text)
    (htakes : forall a text, written a text -> item.Takes text (f a))
    {as : List A} {text : Bytes} (h : WrittenList written as text) :
    (Reader.list item).Takes text (as.map f) := by
  have htaken : ItemsTaken Ascii.closeBracket (fun before => item.map (· :: before)) written
      (fun before a => some (f a :: before)) := by
    refine ⟨by decide, by decide, hbegins, ?_⟩
    intro before a final text hnext hwritten
    cases hnext
    exact takes_map (· :: before) (htakes a text hwritten)
  rcases readItems_of_enclosed htaken h (foldlM_cons_map f as []) with ⟨content, rfl, hrun⟩
  intro spaces hspaces rest
  show readBracketed (readListItems item) refuse _ = _
  rw [readBracketed_openBracket hspaces, readListItems, hrun rest]
  simp only [List.append_nil, List.reverse_reverse]

theorem begins_of_writtenText {closing : UInt8} (hclosing : Ascii.doubleQuote ≠ closing)
    {s : String} {text : Bytes} (h : WrittenText s text) : Begins closing text := by
  rcases readText_of_writtenText h with ⟨content, rfl, _⟩
  exact ⟨Ascii.doubleQuote, content, rfl, by decide, hclosing⟩

theorem takes_texts {ss : List String} {text : Bytes} (h : WrittenList WrittenText ss text) :
    (Reader.list Reader.text).Takes text ss := by
  have htakes := takes_list (f := id) (fun _ _ => begins_of_writtenText (by decide))
    (fun _ _ => takes_text) h
  rw [List.map_id] at htakes
  exact htakes

/-!
# Objects
-/

/-- The value of each member that the state admits is read, and leads to the next
state. -/
def MembersTaken (member : MemberReader State) (value : V -> Bytes -> Prop)
    (next : State -> String × V -> Option State) : Prop :=
  forall state key v final text, next state (key, v) = some final -> value v text ->
    exists r, member state key = .ok r ∧ r.Takes text final

section

variable {member : MemberReader State} {value : V -> Bytes -> Prop}
  {next : State -> String × V -> Option State} {state final : State} {text : Bytes}

theorem begins_of_writtenMember {m : String × V} (h : WrittenMember value m text) :
    Begins Ascii.closeBrace text := by
  cases h with
  | colon hname _ _ _ =>
      rcases readText_of_writtenText hname with ⟨content, rfl, _⟩
      exact ⟨Ascii.doubleQuote, _, rfl, by decide, by decide⟩

theorem begins_of_writtenObject {closing : UInt8} (hclosing : Ascii.openBrace ≠ closing)
    {members : List (String × V)} (h : WrittenObject value members text) :
    Begins closing text := by
  cases h with
  | empty _ => exact ⟨Ascii.openBrace, _, rfl, by decide, hclosing⟩
  | items _ => exact ⟨Ascii.openBrace, _, rfl, by decide, hclosing⟩

theorem readColon_of_blank {before : Bytes} (h : Blank before) (rest : Bytes) :
    readColon (before ++ Ascii.colon :: rest) = .ok rest := by
  simp only [readColon, skipSpaces_eq_cons h (b := Ascii.colon) (by decide) rest, if_true]

theorem takes_member (htaken : MembersTaken member value next) {m : String × V}
    (hnext : next state m = some final) (h : WrittenMember value m text) :
    (Reader.member member state).Takes text final := by
  cases h with
  | @colon key v name before after inner hname hbefore hafter hvalue =>
      rcases readText_of_writtenText hname with ⟨content, rfl, hread⟩
      rcases htaken _ _ _ _ _ hnext hvalue with ⟨r, hmember, htakes⟩
      intro spaces hspaces rest
      have hinput : spaces ++ (Ascii.doubleQuote :: content ++ before ++
          Ascii.colon :: after ++ inner) ++ rest = spaces ++ Ascii.doubleQuote ::
            (content ++ (before ++ Ascii.colon :: (after ++ inner ++ rest))) := by
        simp only [List.append_assoc, List.cons_append]
      have hskip := skipSpaces_eq_cons hspaces (b := Ascii.doubleQuote) (by decide)
        (content ++ (before ++ Ascii.colon :: (after ++ inner ++ rest)))
      show readMember member state _ = _
      rw [hinput, readMember, hskip]
      simp only [if_true, (hread _).left, hmember, readColon_of_blank hbefore]
      exact htakes after hafter rest

theorem readMembers_of_written (htaken : MembersTaken member value next)
    {members : List (String × V)} (h : WrittenObject value members text)
    (hnext : members.foldlM next state = some final) :
    exists content, text = Ascii.openBrace :: content ∧ forall rest,
      readMembers member state (content ++ rest) = .ok (final, rest) := by
  have hitems : ItemsTaken Ascii.closeBrace (Reader.member member) (WrittenMember value) next :=
    ⟨by decide, by decide, fun _ _ => begins_of_writtenMember,
      fun _ _ _ _ => takes_member htaken⟩
  exact readItems_of_enclosed hitems h hnext

theorem takes_object (htaken : MembersTaken member value next)
    {members : List (String × V)} (h : WrittenObject value members text)
    (hnext : members.foldlM next state = some final) :
    (Reader.object member state).Takes text final := by
  rcases readMembers_of_written htaken h hnext with ⟨content, rfl, hrun⟩
  intro spaces hspaces rest
  show readBracketed refuse (readMembers member state) _ = _
  rw [readBracketed_openBrace hspaces, hrun rest]

theorem takes_record (htaken : MembersTaken member value next)
    {members : List (String × V)} (h : WrittenObject value members text)
    (hnext : members.foldlM next state = some final) (fields : List (State -> Reader State)) :
    (Reader.record member fields state).Takes text final := by
  rcases readMembers_of_written htaken h hnext with ⟨content, rfl, hrun⟩
  intro spaces hspaces rest
  show readBracketed (readFields true fields state) (readMembers member state) _ = _
  rw [readBracketed_openBrace hspaces, hrun rest]

end

end Json
end FlowConfig
