/-!
# Commands to a terminal

A terminal takes an escape character and what follows it as a command, and most controls as well. A
text is *plain* without them; of the controls only the ASCII white space stays. A command takes one
of these forms.

* An escape character, any number of characters from the space to the slash, and a final character.
* A control sequence: an escape character, `[`, parameters, and a final character from `@` on.
* A command that carries a text: an escape character, one of `]PX^_`, and a text up to its end.

An escape character ends any command and begins another one; the controls 0x18 and 0x1A end a
command and begin none. White space within the first two forms is no part of the command: it stays,
and so does the text after it up to the next control, where the command goes on.

The program itself leaves nothing out. This is what its logger does with a line of the log, and
serves `Invocation.logLine` alone.
-/

namespace FrappeSyntax.Text.Terminal

/-! ## Characters -/

/-- The white space among the ASCII controls that stays in a plain text. -/
def isWhiteControl (c : Char) : Bool :=
  c = '\t' || c = '\n' || c = '\x0c' || c = '\r'

/-- Holds for a character that stays in a text: white space, or no ASCII control. -/
def isShown (c : Char) : Bool :=
  isWhiteControl c || (0x20 ≤ c.toNat && c.toNat ≠ 0x7F)

/-- Holds for a character of which one byte in UTF-8 is the one-byte string terminator. -/
def holdsTerminator (c : Char) : Bool :=
  (String.utf8EncodeChar c).contains 0x9C

/-! ## Commands -/

/-- The part of a command that a reader is in. -/
inductive Part
  /-- After the escape character. -/
  | start
  /-- After characters from the space to the slash, before the final character. -/
  | intermediate
  /-- In a control sequence, before the final character. -/
  | sequence
  /-- After the letter of a device command. -/
  | device
  /-- In the parameters of a device command. -/
  | deviceParameters
  /-- After the parameters of a device command, before its text. -/
  | deviceIntermediate
  /-- In a text that only a string terminator ends. -/
  | string
  /-- In the text of a command to the operating system, which a bell ends. -/
  | system
deriving DecidableEq

/-- Where a reader of a text is. -/
inductive Place
  /-- Between commands. -/
  | text
  /-- In a command. -/
  | command (part : Part)
  /-- In text after white space that came in the middle of a command. -/
  | aside (part : Part)
deriving DecidableEq

namespace Part

/-- Holds where white space is no part of the command. -/
def admitsWhite : Part → Bool
  | start | intermediate | sequence => true
  | _ => false

/-- Holds if `c` ends the text that a command carries. -/
def endsAt : Part → Char → Bool
  | string, c => holdsTerminator c
  | system, c => c = '\x07'
  | _, _ => false

/-- The place after the printing ASCII character `c` of a command. -/
def nextPrinting : Part → Char → Place
  | start, '[' => .command sequence
  | start, ']' => .command system
  | start, 'P' => .command device
  | start, 'X' | start, '^' | start, '_' => .command string
  | start, c | intermediate, c => if c.toNat < 0x30 then .command intermediate else .text
  | sequence, c => if c.toNat < 0x40 then .command sequence else .text
  | device, c =>
    if c.toNat < 0x30 then .command deviceIntermediate
    else if c.toNat < 0x40 then .command deviceParameters else .command string
  | deviceParameters, c =>
    if c.toNat < 0x30 then .command deviceIntermediate
    else if c.toNat < 0x3C then .command deviceParameters else .command string
  | deviceIntermediate, c =>
    if c.toNat < 0x30 then .command deviceIntermediate else .command string
  | string, _ => .command string
  | system, _ => .command system

/-- The place after the character `c` of a command, unless `c` ends every command. -/
def next (part : Part) (c : Char) : Place :=
  if 0x20 ≤ c.toNat && c.toNat < 0x7F then part.nextPrinting c
  else if part.endsAt c then .text else .command part

end Part

namespace Place

/-- Holds if the character `c` is kept at this place. -/
def keeps : Place → Char → Bool
  | command part, c => part.admitsWhite && isWhiteControl c
  | _, c => isShown c

/-- The place after the character `c`. A character beyond ASCII in an aside ends the command. -/
def next (place : Place) (c : Char) : Place :=
  if c = '\x1b' then command .start
  else if c = '\x18' || c = '\x1a' then text
  else match place with
    | text => text
    | command part => if place.keeps c then aside part else part.next c
    | aside part =>
      if 0x80 ≤ c.toNat then text else if isShown c then place else command part

end Place

/-! ## Plain text -/

/-- What stays of a text that is read from `place` on. -/
def plainFrom : Place → List Char → List Char
  | _, [] => []
  | place, c :: cs =>
    if place.keeps c then c :: plainFrom (place.next c) cs else plainFrom (place.next c) cs

/-- A text without commands and other controls. -/
def plain (text : String) : String :=
  String.ofList (plainFrom .text text.toList)

end FrappeSyntax.Text.Terminal
