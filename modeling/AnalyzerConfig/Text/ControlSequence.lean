namespace AnalyzerConfig.Text

/-- Where a text stands with respect to control sequences. -/
inductive Sequence where
  | plain
  | escape
  | escapeIntermediate
  /-- In a control sequence, which an opening bracket begins. -/
  | control
  | command
  | device
  | deviceParameters
  | deviceIntermediate
  /-- In the body of a device control string, or in another string that only a terminator ends. -/
  | string
deriving DecidableEq

def isWithin (lo hi : Nat) (c : Char) : Bool := lo ≤ c.toNat && c.toNat ≤ hi

/-- Whether a control character is white space: tab, line feed, form feed or carriage return. -/
def isBreak (c : Char) : Bool := c == '\t' || c == '\n' || c == '\x0c' || c == '\r'

def isShown (c : Char) : Bool := isBreak c || (0x20 ≤ c.toNat && c.toNat != 0x7F)

namespace Sequence

/-- Whether a character is shown inside a sequence. White space is, except in strings and
commands. -/
def shows : Sequence → Char → Bool
  | .plain, c => isShown c
  | .escape, c | .escapeIntermediate, c | .control, c => isBreak c
  | .command, _ | .device, _ | .deviceParameters, _ | .deviceIntermediate, _ | .string, _ => false

/-- Where the text stands behind a character that is not shown. Two control characters break every
sequence off, and an escape character begins a new one. A string ends with the byte 9C, even in the
midst of a character. -/
def next (s : Sequence) (c : Char) : Sequence :=
  if c = '\x18' ∨ c = '\x1a' then .plain
  else if c = '\x1b' then .escape
  else
    match s with
    | .plain => .plain
    | .escape =>
      if isWithin 0x20 0x2F c then .escapeIntermediate
      else if c = '[' then .control
      else if c = ']' then .command
      else if c = 'P' then .device
      else if c = 'X' ∨ c = '^' ∨ c = '_' then .string
      else if isWithin 0x30 0x7E c then .plain
      else .escape
    | .escapeIntermediate => if isWithin 0x30 0x7E c then .plain else .escapeIntermediate
    | .control => if isWithin 0x40 0x7E c then .plain else .control
    | .command => if c = '\x07' then .plain else .command
    | .device =>
      if isWithin 0x20 0x2F c then .deviceIntermediate
      else if isWithin 0x30 0x3F c then .deviceParameters
      else if isWithin 0x40 0x7E c then .string
      else .device
    | .deviceParameters =>
      if isWithin 0x20 0x2F c then .deviceIntermediate
      else if isWithin 0x3C 0x7E c then .string
      else .deviceParameters
    | .deviceIntermediate => if isWithin 0x30 0x7E c then .string else .deviceIntermediate
    | .string => if (String.utf8EncodeChar c).contains 0x9C then .plain else .string

/-- What is shown of a text. Once a character is shown, all that follows is taken for plain text up
to the next character that plain text does not show; there a sequence that was open goes on, unless
a character beyond ASCII has come between. -/
def shown (s : Sequence) (showing : Bool) : List Char → List Char
  | [] => []
  | c :: cs =>
    if if showing then isShown c else s.shows c then
      c :: shown (if c.toNat < 0x80 then s else .plain) true cs
    else shown (s.next c) false cs

end Sequence

/-- The text without control sequences and without control characters other than white space. -/
def withoutControls (text : String) : String :=
  String.ofList (Sequence.shown .plain true text.toList)

end AnalyzerConfig.Text
