import FrappeSyntax.Error.Report
import FrappeSyntax.Parse
import FrappeSyntax.Program.Dump
import FrappeSyntax.Text.Terminal
import FrappeSyntax.Token.Scan

/-!
# The command line

The program reads one file, scans and parses it, and shows its dump or a report on the first error.
An option sets the limit on depth, another one shows the log. What the program writes is decided
here as text; how long each part took is the only thing that has to be told from outside. These are
`parse_args` and what `main` decides.

The lines of the log are written by the logger that `init_logger` sets up, which is no part of the
program. `Invocation.logLine` and `FrappeSyntax.Text.Terminal` say what it writes; only the log that
`--trace` shows depends on them, and no result of the proofs is about it.
-/

namespace FrappeSyntax

/-- What the program is asked to do. -/
structure Invocation where
  /-- The path of the source. -/
  file : String
  limits : Limits
  /-- Whether the log is shown. -/
  traced : Bool
deriving DecidableEq

/-- What the program writes, and its exit code. -/
structure Outcome where
  exit : Nat
  out : String
  err : String
deriving DecidableEq

namespace Invocation

/-! ## Arguments -/

/-- The number that decimal digits write; none without a digit. -/
def decimal? (digits : List Char) : Option Nat :=
  if digits ≠ [] ∧ digits.all Char.isDigit then
    some (digits.foldl (fun n d => 10 * n + (d.toNat - '0'.toNat)) 0)
  else none

/-- The largest number that fits into 64 bits. -/
def greatestDepth : Nat := 0xFFFFFFFFFFFFFFFF

/-- The number that an argument writes: decimal digits, after a plus sign if one stands there. It
has to fit into 64 bits. -/
def depth? (argument : String) : Option Nat :=
  let digits := match argument.toList with
    | '+' :: digits => digits
    | digits => digits
  (decimal? digits).filter (· ≤ greatestDepth)

/-- The loop of `parse_args`: reads arguments from left to right, after those that gave `file`,
`maxDepth` and `traced`. -/
def readArgs (file : Option String) (maxDepth : Nat) (traced : Bool) :
    List String → Option Invocation
  | [] => file.map fun file => ⟨file, { maxDepth }, traced⟩
  | "--max-depth" :: [] => none
  | "--max-depth" :: value :: rest =>
    (depth? value).bind fun maxDepth => readArgs file maxDepth traced rest
  | "--trace" :: rest => readArgs file maxDepth true rest
  | argument :: rest => if file.isNone then readArgs (some argument) maxDepth traced rest else none

/-- Model of `parse_args`: what a list of arguments asks for, of which the first is the program's
own name. There has to be exactly one file. -/
def ofArgs? (args : List String) : Option Invocation :=
  readArgs none ({} : Limits).maxDepth false args.tail

/-! ## Work on the source -/

/-- The `file_name` of `main`: the last part of the file's path, by which positions and the log call
the file. -/
def fileName (invocation : Invocation) : String :=
  String.ofList (invocation.file.toList.reverse.takeWhile (· != '/')).reverse

/-- Scans the source. -/
def scan (invocation : Invocation) (source : String) : Except Error (List Token) :=
  tokenize source invocation.fileName

/-- Parses the tokens of the source. -/
def parse (invocation : Invocation) (tokens : List Token) : Except Error Program × Parser :=
  parseWith (.ofTokens tokens invocation.fileName) invocation.limits

/-! ## Output -/

/-- Indents all lines of a text but the first. -/
def continued (text : String) : String :=
  String.ofList (text.toList.flatMap fun c => if c = '\n' then "\n    ".toList else [c])

/-- An event as the logger writes it where its output is no terminal, but without the time that
stands first there. It is plain text, its line feed included: a command to the terminal in the name
of a file or in a token is left out, and one that does not end takes the line feed with it. -/
def logLine (event : Event) : String :=
  Text.Terminal.plain
    ("[" ++ event.level.label ++ " " ++ event.target ++ "] " ++ continued event.text ++ "\n")

/-- The log, if it is shown: `init_logger` lets all events through if they are to be traced. -/
def logText (invocation : Invocation) (events : List Event) : String :=
  if invocation.traced then String.join (events.map logLine) else ""

/-- How the program is used. -/
def usage (program : String) : Outcome :=
  ⟨2, "", "Usage: " ++ program ++ " <file> [--max-depth N] [--trace]\n"⟩

/-- The source could not be read. -/
def unreadable (invocation : Invocation) (reason : String) : Outcome :=
  ⟨1, "", "Failed to read " ++ invocation.file ++ ": " ++ reason ++ "\n"⟩

/-- The source could not be scanned. -/
def unscannable (invocation : Invocation) (source : String) (error : Error) : Outcome :=
  ⟨1, "", error.report source invocation.file⟩

/-- The source was scanned, and parsed with or without an error. -/
def parsed (invocation : Invocation) (source : String) (tokens : List Token)
    (result : Except Error Program) (parser : Parser) (scanTime parseTime : String) : Outcome :=
  let times := "Tokenized in " ++ scanTime ++ "\nParsed in " ++ parseTime ++ "\n"
  let log := invocation.logText
    (Event.ofScan (.ok tokens) invocation.fileName ++ parser.log.reverse)
  match result with
  | .ok program => ⟨0, times ++ program.dump.block ++ "\n", log⟩
  | .error error => ⟨1, times, log ++ error.report source invocation.file⟩

/-- Model of `main`, from the source on: all that the program does with it. -/
def outcome (invocation : Invocation) (source scanTime parseTime : String) : Outcome :=
  match invocation.scan source with
  | .error error => invocation.unscannable source error
  | .ok tokens =>
    let (result, parser) := invocation.parse tokens
    invocation.parsed source tokens result parser scanTime parseTime

end Invocation

end FrappeSyntax
