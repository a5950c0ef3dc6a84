import FlowConfig.Proofs.Markup.Transcript

/-!
# Lexical form

One document can be written in many ways: with comments and declarations or
without, with an empty tag or with a start tag and its end tag, with its text in
one run or in several, escaped or in CDATA sections.  Lexemes are what is found
in a text, as it is written.  Tokens are what is left when the way of writing is
forgotten.  What the events of a text say depends on its tokens alone.
-/

namespace FlowConfig
namespace Markup

/-!
# Lexemes and tokens
-/

/-- Something found in a text, with its tags of type `T` and its end names of
type `N`.  Text is free of references. -/
inductive Lexeme (T N : Type) where
  | startTag (tag : T)
  | emptyTag (tag : T)
  | endTag (name : N)
  | text (content : String)
  | cdata (content : String)
  | instruction
  | comment
  | doctype
deriving DecidableEq, Repr

inductive Token (T N : Type) where
  | opening (tag : T)
  | closing (name : N)
  | text (content : String)
deriving DecidableEq, Repr

variable {T N : Type}

def addText (content : String) : List (Token T N) -> List (Token T N)
  | .text more :: rest => .text (content ++ more) :: rest
  | .opening tag :: rest => .text content :: .opening tag :: rest
  | .closing name :: rest => .text content :: .closing name :: rest
  | [] => [.text content]

/-- The tokens of a lexeme and what follows it, where the end name of each tag is
known: markup without a trace is left out, an empty tag is a start tag with its end
tag, and neighbouring text is joined, whether it stands in a CDATA section or not. -/
def Lexeme.before (endOf : T -> N) (rest : List (Token T N)) :
    Lexeme T N -> List (Token T N)
  | .startTag tag => .opening tag :: rest
  | .emptyTag tag => .opening tag :: .closing (endOf tag) :: rest
  | .endTag name => .closing name :: rest
  | .text content => addText content rest
  | .cdata content => addText content rest
  | .instruction => rest
  | .comment => rest
  | .doctype => rest

def tokens (endOf : T -> N) : List (Lexeme T N) -> List (Token T N)
  | [] => []
  | lexeme :: rest => lexeme.before endOf (tokens endOf rest)

/-!
# Lexemes of a text

Tags are kept as they are written.  Only cutting and decoding of text can fail.
-/

def Piece.lexeme : Piece -> Except Fault (Lexeme Bytes Bytes)
  | .text raw => (decodeText raw).map .text
  | .startTag content => .ok (.startTag content)
  | .emptyTag content => .ok (.emptyTag content)
  | .endTag content => .ok (.endTag (endName content))
  | .instruction _ => .ok .instruction
  | .comment _ => .ok .comment
  | .cdata raw => (decodeCdata raw).map .cdata
  | .doctype _ => .ok .doctype

def lexemesFrom (bytes : Bytes) : Except Fault (List (Lexeme Bytes Bytes)) :=
  match bytes with
  | [] => .ok []
  | b :: rest =>
      match readPiece b rest with
      | .error fault => .error (.piece fault)
      | .ok piece =>
          match piece.lexeme with
          | .error fault => .error fault
          | .ok lexeme => (lexemesFrom (rest.drop (piece.size - 1))).map (lexeme :: ·)
termination_by bytes.length
decreasing_by simp only [List.length_drop, List.length_cons]; omega

def lexemes (input : Bytes) : Except Fault (List (Lexeme Bytes Bytes)) :=
  lexemesFrom (dropByteOrderMark input)

/-!
# Names and attributes

Tags are decoded with the namespaces in force, so every tag depends on those
before it.
-/

/-- The event of a lexeme and the state after it. -/
def Lexeme.resolve (state : ReaderState) :
    Lexeme Bytes Bytes -> Except Fault (Event × ReaderState)
  | .startTag content => readEvent state (.startTag content)
  | .emptyTag content => readEvent state (.emptyTag content)
  | .endTag name => (closeName state name).map fun next => (.endTag, next)
  | .text content => .ok (.text content, state)
  | .cdata content => .ok (.cdata content, state)
  | .instruction => .ok (.instruction, state)
  | .comment => .ok (.comment, state)
  | .doctype => .ok (.doctype, state)

def resolveFrom (state : ReaderState) :
    List (Lexeme Bytes Bytes) -> Except Fault (List Event)
  | [] => .ok []
  | lexeme :: rest =>
      match lexeme.resolve state with
      | .error fault => .error fault
      | .ok (event, next) => (resolveFrom next rest).map (event :: ·)

theorem readEvent_eq (state : ReaderState) (piece : Piece) :
    readEvent state piece = piece.lexeme.bind (Lexeme.resolve state) := by
  cases piece with
  | text raw =>
      rw [readEvent, Piece.lexeme]
      cases decodeText raw with
      | error fault => rfl
      | ok content => rfl
  | cdata raw =>
      rw [readEvent, Piece.lexeme]
      cases decodeCdata raw with
      | error fault => rfl
      | ok content => rfl
  | endTag content =>
      rw [readEvent, Piece.lexeme, Except.bind, Lexeme.resolve, readEnd, closeName]
      cases state.opened with
      | nil => rfl
      | cons innermost opened =>
          simp only
          split
          · rfl
          · rfl
  | startTag content => rfl
  | emptyTag content => rfl
  | instruction content => rfl
  | comment content => rfl
  | doctype content => rfl

/-- The events of a text that was read to its end, or the fault. -/
def Transcript.verdict (t : Transcript) : Except Fault (List Event) :=
  match t.fault with
  | some fault => .error fault.value
  | none => .ok (t.events.map Located.value)

/-- Reading gives the events of the lexemes. -/
theorem verdict_transcribeFrom {bytes : Bytes} {found : List (Lexeme Bytes Bytes)}
    (h : lexemesFrom bytes = .ok found) (offset : Nat) (state : ReaderState)
    (before : List (Located Event)) :
    (transcribeFrom offset state before bytes).verdict =
      (resolveFrom state found).map (before.reverse.map Located.value ++ ·) := by
  fun_induction lexemesFrom bytes generalizing found offset state before with
  | case1 =>
      cases h
      rw [transcribeFrom]
      simp [resolveFrom, Transcript.verdict, Except.map]
  | case2 b rest fault hpiece => cases h
  | case3 b rest piece hpiece fault hlexeme => cases h
  | case4 b rest piece hpiece lexeme hlexeme ih =>
      cases hmore : lexemesFrom (rest.drop (piece.size - 1)) with
      | error fault =>
          rw [hmore] at h
          cases h
      | ok more =>
          rw [hmore] at h
          cases h
          rw [transcribeFrom, hpiece]
          simp only [readEvent_eq, hlexeme, Except.bind, resolveFrom]
          cases lexeme.resolve state with
          | error fault => rfl
          | ok answer =>
              obtain ⟨event, next⟩ := answer
              simp only [ih hmore]
              cases resolveFrom next more with
              | error fault => rfl
              | ok events => simp [Except.map]

theorem verdict_transcribe {input : Bytes} {found : List (Lexeme Bytes Bytes)}
    (h : lexemes input = .ok found) :
    (transcribe input).verdict = resolveFrom ReaderState.initial found := by
  rw [transcribe, verdict_transcribeFrom h]
  cases resolveFrom ReaderState.initial found with
  | error fault => rfl
  | ok events => rfl

/-!
# Tokens of events

Resolving tags and forgetting the way of writing can change places.
-/

def Event.lexeme : Event -> Lexeme Tag Unit
  | .startTag tag => .startTag tag
  | .emptyTag tag => .emptyTag tag
  | .endTag => .endTag ()
  | .text content => .text content
  | .cdata content => .cdata content
  | .instruction => .instruction
  | .comment => .comment
  | .doctype => .doctype

def eventTokens (events : List Event) : List (Token Tag Unit) :=
  tokens (fun _ => ()) (events.map Event.lexeme)

def openTag (state : ReaderState) (content : Bytes) : Except Fault (Tag × ReaderState) := do
  let scope ← enterScope state.scope content
  let tag ← decodeTag scope content
  .ok (tag, ⟨⟨tagName content, state.scope⟩ :: state.opened, scope⟩)

def Token.resolve (state : ReaderState) :
    Token Bytes Bytes -> Except Fault (Token Tag Unit × ReaderState)
  | .opening content =>
      (openTag state content).map fun opened => (.opening opened.1, opened.2)
  | .closing name => (closeName state name).map fun next => (.closing (), next)
  | .text content => .ok (.text content, state)

def resolveTokens (state : ReaderState) :
    List (Token Bytes Bytes) -> Except Fault (List (Token Tag Unit))
  | [] => .ok []
  | token :: rest =>
      match token.resolve state with
      | .error fault => .error fault
      | .ok (resolved, next) => (resolveTokens next rest).map (resolved :: ·)

theorem readEvent_startTag (state : ReaderState) (content : Bytes) :
    readEvent state (.startTag content) =
      (openTag state content).map fun opened => (.startTag opened.1, opened.2) := by
  simp only [readEvent, openTag, bind, Except.bind]
  cases enterScope state.scope content with
  | error fault => rfl
  | ok scope =>
      dsimp only
      cases decodeTag scope content with
      | error fault => rfl
      | ok tag => rfl

theorem readEvent_emptyTag (state : ReaderState) (content : Bytes) :
    readEvent state (.emptyTag content) =
      (openTag state content).map fun opened => (.emptyTag opened.1, state) := by
  simp only [readEvent, openTag, bind, Except.bind]
  cases enterScope state.scope content with
  | error fault => rfl
  | ok scope =>
      dsimp only
      cases decodeTag scope content with
      | error fault => rfl
      | ok tag => rfl

theorem closeName_of_openTag {state next : ReaderState} {content : Bytes} {tag : Tag}
    (h : openTag state content = .ok (tag, next)) :
    closeName next (tagName content) = .ok state := by
  simp only [openTag, bind, Except.bind] at h
  split at h
  · cases h
  · split at h
    · cases h
    · cases h
      simp [closeName]

/-- Text joins the text behind it before tags are resolved as it does after. -/
theorem resolveTokens_addText (state : ReaderState) (content : String)
    (rest : List (Token Bytes Bytes)) :
    resolveTokens state (addText content rest) =
      (resolveTokens state rest).map (addText content) := by
  cases rest with
  | nil => rfl
  | cons token rest =>
      cases token with
      | text more =>
          simp only [addText, resolveTokens, Token.resolve]
          cases resolveTokens state rest with
          | error fault => rfl
          | ok events => rfl
      | opening tag =>
          simp only [addText, resolveTokens, Token.resolve]
          cases openTag state tag with
          | error fault => rfl
          | ok answer =>
              simp only [Except.map]
              cases resolveTokens answer.2 rest with
              | error fault => rfl
              | ok events => rfl
      | closing name =>
          simp only [addText, resolveTokens, Token.resolve]
          cases closeName state name with
          | error fault => rfl
          | ok next =>
              simp only [Except.map]
              cases resolveTokens next rest with
              | error fault => rfl
              | ok events => rfl

theorem map_eventTokens_cons (event : Event) (answer : Except Fault (List Event)) :
    (answer.map (event :: ·)).map eventTokens =
      (answer.map eventTokens).map fun rest => event.lexeme.before (fun _ => ()) rest := by
  cases answer with
  | error fault => rfl
  | ok events => rfl

theorem map_eventTokens_cons_of_trace {event : Event} (answer : Except Fault (List Event))
    (h : forall rest, event.lexeme.before (fun _ => ()) rest = rest) :
    (answer.map (event :: ·)).map eventTokens = answer.map eventTokens := by
  rw [map_eventTokens_cons]
  simp only [h]
  cases answer with
  | error fault => rfl
  | ok events => rfl

/-- The tokens of the events of a text are found from the tokens of its lexemes. -/
theorem map_eventTokens_resolveFrom (state : ReaderState) (found : List (Lexeme Bytes Bytes)) :
    (resolveFrom state found).map eventTokens = resolveTokens state (tokens tagName found) := by
  induction found generalizing state with
  | nil => rfl
  | cons lexeme rest ih =>
      rw [resolveFrom, tokens]
      cases lexeme with
      | startTag content =>
          rw [Lexeme.before, resolveTokens, Lexeme.resolve, readEvent_startTag,
            Token.resolve]
          cases openTag state content with
          | error fault => rfl
          | ok answer => exact (map_eventTokens_cons _ _).trans (congrArg _ (ih answer.2))
      | emptyTag content =>
          rw [Lexeme.before, resolveTokens, Lexeme.resolve, readEvent_emptyTag,
            Token.resolve]
          cases hopen : openTag state content with
          | error fault => rfl
          | ok answer =>
              have hclose := closeName_of_openTag hopen
              simp only [Except.map, resolveTokens, Token.resolve, hclose]
              refine (map_eventTokens_cons _ _).trans ?_
              rw [ih]
              cases resolveTokens state (tokens tagName rest) with
              | error fault => rfl
              | ok events => rfl
      | endTag name =>
          rw [Lexeme.before, resolveTokens, Lexeme.resolve, Token.resolve]
          cases closeName state name with
          | error fault => rfl
          | ok next => exact (map_eventTokens_cons _ _).trans (congrArg _ (ih next))
      | text content =>
          rw [Lexeme.before, resolveTokens_addText, ← ih]
          exact map_eventTokens_cons _ _
      | cdata content =>
          rw [Lexeme.before, resolveTokens_addText, ← ih]
          exact map_eventTokens_cons _ _
      | instruction => exact (map_eventTokens_cons_of_trace _ fun _ => rfl).trans (ih state)
      | comment => exact (map_eventTokens_cons_of_trace _ fun _ => rfl).trans (ih state)
      | doctype => exact (map_eventTokens_cons_of_trace _ fun _ => rfl).trans (ih state)

end Markup
end FlowConfig
