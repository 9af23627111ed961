/-!
# Terminal control sequences

A text that is not written to a terminal has to do without control sequences:
without escape sequences, control strings and the control characters that are
no white space.

A terminal reads a text character by character, and its state says what kind
of sequence it is in.  White space inside a sequence is shown at once, and so
is the plain text that follows it; the sequence is resumed at the next
character that cannot be shown.
-/

namespace Metastring.ControlSequence

/-- What a terminal is reading. -/
inductive State where
  /-- Plain text. -/
  | ground
  /-- What follows an escape character. -/
  | escape
  | escapeIntermediate
  /-- A control sequence with its parameters. -/
  | control
  /-- An operating system command. -/
  | command
  /-- The head of a device control string. -/
  | deviceEntry
  | deviceParameters
  | deviceIntermediate
  /-- The body of a control string. -/
  | string
deriving DecidableEq, Inhabited

/-- A control character that is white space. -/
def isSpacing (letter : Char) : Bool :=
  letter = '\t' || letter = '\n' || letter = '\x0c' || letter = '\r'

/-- Whether a character of a plain text is shown. -/
def isShown (letter : Char) : Bool :=
  isSpacing letter || (' ' ≤ letter && letter ≠ '\x7f')

def isWithin (first last letter : Char) : Bool :=
  first ≤ letter && letter ≤ last

/-- The state behind the character that follows an escape character. -/
def State.afterEscape (letter : Char) : State :=
  if isWithin ' ' '/' letter then .escapeIntermediate
  else if letter = '[' then .control
  else if letter = ']' then .command
  else if letter = 'P' then .deviceEntry
  else if letter = 'X' || letter = '^' || letter = '_' then .string
  else if isWithin '0' '~' letter then .ground
  else .escape

/-- The state behind a character of the head of a device control string:
`further` if it is a parameter. -/
def State.afterDevice (state further : State) (letter : Char) : State :=
  if isWithin ' ' '/' letter then .deviceIntermediate
  else if isWithin '0' '?' letter then further
  else if isWithin '@' '~' letter then .string
  else state

/-- The state behind a character.  Two control characters end every sequence
and a third one begins a new one. -/
def State.next (state : State) (letter : Char) : State :=
  if letter = '\x18' || letter = '\x1a' then .ground
  else if letter = '\x1b' then .escape
  else
    match state with
    | .ground => .ground
    | .escape => .afterEscape letter
    | .escapeIntermediate =>
      if isWithin '0' '~' letter then .ground else .escapeIntermediate
    | .control => if isWithin '@' '~' letter then .ground else .control
    | .command => if letter = '\x07' then .ground else .command
    | .deviceEntry => state.afterDevice .deviceParameters letter
    | .deviceParameters =>
      state.afterDevice
        (if isWithin '<' '?' letter then .string else .deviceParameters) letter
    | .deviceIntermediate => state.afterDevice .string letter
    | .string =>
      if (String.utf8EncodeChar letter).contains 0x9C then .ground else .string

def State.shows (state : State) (letter : Char) : Bool :=
  match state with
  | .ground => isShown letter
  | .escape | .escapeIntermediate | .control => isSpacing letter
  | .command | .deviceEntry | .deviceParameters | .deviceIntermediate
  | .string => false

/-- The characters that are shown from a state on.  While `showing`, plain text
is shown whatever the state; a character beyond ASCII ends the sequence. -/
def shownFrom (state : State) (showing : Bool) : List Char → List Char
  | [] => []
  | letter :: rest =>
    if showing && isShown letter then
      letter ::
        shownFrom (if letter < '\x80' then state else .ground) true rest
    else if state.shows letter then
      letter :: shownFrom (state.next letter) true rest
    else shownFrom (state.next letter) false rest

/-- A text without control sequences. -/
def remove (text : String) : String :=
  String.ofList (shownFrom .ground false text.toList)

end Metastring.ControlSequence
