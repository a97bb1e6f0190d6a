import TriggerSheet.CommandLine

/-!
# The program

Reads the sheet that the arguments name and prints the answer of the command line.
-/

namespace TriggerSheet

/-- All bytes of a stream. -/
partial def readAllBytes (stream : IO.FS.Stream) (read : ByteArray) : IO ByteArray := do
  let chunk ← stream.read 65536
  if chunk.isEmpty then return read else readAllBytes stream (read ++ chunk)

/-- Whether the code of an error is a number of the system, which also counts errors downwards. -/
def isErrorCode (number code : UInt32) : Bool := code = number || code = 0 - number

/-- The failure that an error of the system stands for. -/
def readFailureOf : IO.Error → ReadFailure
  | .noFileOrDirectory .. => .notFound
  | .inappropriateType _ code message =>
    if isErrorCode 20 code then .notFolder
    else if isErrorCode 21 code then .isFolder
    else .other message
  | .invalidArgument _ code message =>
    if isErrorCode 36 code then .nameTooLong else .other message
  | error => .other (toString error)

/-- What can be read from an origin. -/
def readOrigin : Origin → IO (Except ReadFailure ByteArray)
  | .standardInput => do return .ok (← readAllBytes (← IO.getStdin) ByteArray.empty)
  | .file path => do
    try return .ok (← IO.FS.readBinFile path)
    catch error => return .error (readFailureOf error)

/-- The answer of the program to its arguments. -/
def answer (arguments : List String) : IO Outcome := do
  match Request.ofArguments arguments with
  | .inspect i => return i.outcome (← readOrigin i.origin)
  | request => return request.outcome fun _ => .error .notFound

end TriggerSheet

def main (arguments : List String) : IO UInt32 := do
  let outcome ← TriggerSheet.answer arguments
  IO.print outcome.output
  IO.eprint (outcome.error.getD "error: the arguments cannot be used\n")
  return UInt32.ofNat outcome.exit
