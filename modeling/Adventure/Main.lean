import Adventure.Check

/-!
The checker as a program: its arguments are the files to check.
-/

namespace Adventure

/-- The system's codes for what went wrong; some calls give them negated. -/
def isCode (number code : UInt32) : Bool := code == number || code == -number

def readFailureOf : IO.Error → ReadFailure
  | .noFileOrDirectory .. => .missing
  | .inappropriateType _ code _ => if isCode 20 code then .notDirectory else .isDirectory
  | .invalidArgument path code reason =>
      if isCode 36 code then .nameTooLong
      else .other (toString (IO.Error.invalidArgument path code reason))
  | error => .other (toString error)

def readSource (path : String) : IO (Except ReadFailure String) := do
  try
    return decodeSource (← IO.FS.readBinFile path)
  catch error =>
    return .error (readFailureOf error)

end Adventure

def main (arguments : List String) : IO UInt32 := do
  let outcome ← Adventure.Check.run Adventure.readSource arguments
  IO.print outcome.output
  IO.eprint outcome.errors
  return outcome.status.toUInt32
