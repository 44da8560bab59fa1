import FrappeSyntax.CommandLine

/-!
# The program

Reads the file, measures the time, and writes what `FrappeSyntax.CommandLine` decides. This is
`main`, of which nothing is left here but its effects.
-/

namespace FrappeSyntax

/-- The digits of `part` after a point, out of `width`, without zeros at the end. -/
def fractionText (width part : Nat) : String :=
  let digits := (toString part).toList
  let padded := List.replicate (width - digits.length) '0' ++ digits
  let shown := (padded.reverse.dropWhile (· == '0')).reverse
  if shown.isEmpty then "" else "." ++ String.ofList shown

/-- A stretch of time in the largest unit of which it has one. -/
def durationText (nanoseconds : Nat) : String :=
  let inUnits (unit digits : Nat) (suffix : String) :=
    toString (nanoseconds / unit) ++ fractionText digits (nanoseconds % unit) ++ suffix
  if nanoseconds < 1000 then inUnits 1 0 "ns"
  else if nanoseconds < 1000000 then inUnits 1000 3 "µs"
  else if nanoseconds < 1000000000 then inUnits 1000000 6 "ms"
  else inUnits 1000000000 9 "s"

/-- A failure of the system: its name, and its number, which may come with either sign. -/
def systemFailure (code : UInt32) (details : String) : String :=
  let number := if code < 0x80000000 then code else 0 - code
  details.capitalize ++ " (os error " ++ toString number ++ ")"

/-- The reason for which a file could not be read. -/
def failureText : IO.Error → String
  | .noFileOrDirectory _ code details
  | .permissionDenied _ code details
  | .inappropriateType _ code details
  | .invalidArgument _ code details
  | .resourceExhausted _ code details
  | .noSuchThing _ code details
  | .otherError code details => systemFailure code details
  | error => toString error

/-- The text of a file, or the reason why there is none. -/
def readSource (path : String) : IO (Except String String) := do
  try
    let bytes ← IO.FS.readBinFile path
    match String.fromUTF8? bytes with
    | some source => pure (.ok source)
    | none => pure (.error "stream did not contain valid UTF-8")
  catch error => pure (.error (failureText error))

/-- Runs a computation and measures the time that it takes. -/
def timed (compute : Unit → α) : IO (α × String) := do
  let start ← IO.monoNanosNow
  let result ← IO.lazyPure compute
  let stop ← IO.monoNanosNow
  pure (result, durationText (stop - start))

/-- Does what an invocation asks for. -/
def Invocation.perform (invocation : Invocation) : IO Outcome := do
  match ← readSource invocation.file with
  | .error reason => pure (invocation.unreadable reason)
  | .ok source =>
    let (scanned, scanTime) ← timed fun _ => invocation.scan source
    match scanned with
    | .error error => pure (invocation.unscannable source error)
    | .ok tokens =>
      let ((result, parser), parseTime) ← timed fun _ => invocation.parse tokens
      pure (invocation.parsed source tokens result parser scanTime parseTime)

end FrappeSyntax

/-- Runs the program on its arguments, which lack its own name. -/
def main (args : List String) : IO UInt32 := do
  let program := "frappe"
  let outcome ← match FrappeSyntax.Invocation.ofArgs? (program :: args) with
    | none => pure (FrappeSyntax.Invocation.usage program)
    | some invocation => invocation.perform
  IO.print outcome.out
  IO.eprint outcome.err
  pure outcome.exit.toUInt32
