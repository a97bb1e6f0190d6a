import TriggerSheet.Folder
import TriggerSheet.Report
import TriggerSheet.Sheet.Reader

/-!
# The command line

`cssc` reads one sheet, from a file or from standard input, and prints a report on it. Arguments
are taken from left to right; the first one that cannot be used, or that asks for the version,
decides. A strict run fails when a call would be skipped.

## Main definitions

* `Request.ofArguments` — what the arguments ask for
* `Request.outcome` — what the program answers, given what it could read
* `CommandLine.run` — both, over any way to read
-/

namespace TriggerSheet

/-- Where a sheet is read from. -/
inductive Origin where
  | standardInput
  | file (path : String)
  deriving DecidableEq, Repr

namespace Origin

/-- The origin that a path argument names; a hyphen names standard input. -/
def ofPath (path : String) : Origin := if path = "-" then standardInput else file path

/-- The name of an origin in a report. -/
def name : Origin → String
  | standardInput => "<stdin>"
  | file path => path

/-- The name of an origin in an error. -/
def description : Origin → String
  | standardInput => "stdin"
  | file path => path

end Origin

/-- What to report on, and how. -/
structure Inspection where
  origin : Origin
  color : Bool
  strict : Bool
  deriving DecidableEq, Repr

/-- What the arguments ask for. -/
inductive Request where
  | version
  | misuse
  | inspect (inspection : Inspection)
  deriving DecidableEq, Repr

/-- The arguments that were taken so far. -/
structure Arguments where
  color : Bool := false
  noColor : Bool := false
  strict : Bool := false
  path : Option String := none
  deriving DecidableEq, Repr

namespace Arguments

/-- Takes a path, which has to be the only one and not empty. -/
def takePath (a : Arguments) (path : String) : Option Arguments :=
  if path.isEmpty ∨ a.path.isSome then none else some { a with path := some path }

/-- What the arguments ask for when none is left; color cannot be both wanted and unwanted. -/
def request (a : Arguments) : Request :=
  if a.color && a.noColor then .misuse
  else .inspect ⟨(a.path.map Origin.ofPath).getD .standardInput, a.color, a.strict⟩

/-- What the remaining arguments ask for when all of them are paths. -/
def takePaths (a : Arguments) : List String → Request
  | [] => a.request
  | path :: rest =>
    match a.takePath path with
    | some a => takePaths a rest
    | none => .misuse

/-- Whether an argument is an option and not a path: a hyphen with more behind it. -/
def isOption (argument : String) : Bool :=
  match argument.toList with
  | '-' :: _ :: _ => true
  | _ => false

/-- Whether an argument asks for the version. -/
def asksVersion (argument : String) : Bool :=
  argument = "--version" ||
    match argument.toList with
    | '-' :: 'V' :: _ => true
    | _ => false

/-- Takes an option, which may be given once. -/
def takeOption (a : Arguments) : String → Option Arguments
  | "--color" => if a.color then none else some { a with color := true }
  | "--no-color" => if a.noColor then none else some { a with noColor := true }
  | "--strict" => if a.strict then none else some { a with strict := true }
  | _ => none

/-- What the remaining arguments ask for. -/
def take (a : Arguments) : List String → Request
  | [] => a.request
  | argument :: rest =>
    if argument = "--" then a.takePaths rest
    else if asksVersion argument then .version
    else
      match if isOption argument then a.takeOption argument else a.takePath argument with
      | some a => take a rest
      | none => .misuse

end Arguments

/-- What the arguments of the program ask for. -/
def Request.ofArguments (arguments : List String) : Request := ({} : Arguments).take arguments

/-- What the program answers. Nothing is said here about the wording of misuse. -/
structure Outcome where
  exit : Nat
  output : String
  error : Option String
  deriving DecidableEq, Repr

namespace Outcome

/-- The program fails with a message. -/
def failure (message : String) : Outcome := ⟨1, "", some ("Error: " ++ message ++ "\n")⟩

/-- The program fails to read its sheet. -/
def readFailure (origin : Origin) (cause : ReadFailure) : Outcome :=
  failure ("failed to read " ++ origin.description ++ "\n\nCaused by:\n    " ++ cause.message)

end Outcome

namespace Inspection

/-- The answer for a text that was read. -/
def report (i : Inspection) (source : String) : Outcome :=
  if source.toList.all Text.isBlank then .failure "no input provided"
  else
    let blocks := Sheet.parse source
    let skipped := (Summary.ofBlocks blocks).skipped
    ⟨if i.strict ∧ 0 < skipped then 1 else 0, Report.text ⟨i.color⟩ i.origin.name blocks, some ""⟩

/-- The answer for what could be read. -/
def outcome (i : Inspection) (content : Except ReadFailure ByteArray) : Outcome :=
  match content with
  | .error cause => .readFailure i.origin cause
  | .ok bytes =>
    match String.fromUTF8? bytes with
    | some source => i.report source
    | none => .readFailure i.origin .notText

end Inspection

/-- What the program answers to a request, given what can be read. -/
def Request.outcome (request : Request) (read : Origin → Except ReadFailure ByteArray) : Outcome :=
  match request with
  | .version => ⟨0, "cssc 0.1.0\n", some ""⟩
  | .misuse => ⟨2, "", none⟩
  | .inspect i => i.outcome (read i.origin)

/-- What the program answers to its arguments, given what can be read. -/
def CommandLine.run (arguments : List String) (read : Origin → Except ReadFailure ByteArray) :
    Outcome :=
  (Request.ofArguments arguments).outcome read

/-- Reading from a folder and from the bytes of standard input. -/
def Folder.source (folder : Folder) (standardInput : ByteArray) :
    Origin → Except ReadFailure ByteArray
  | .standardInput => .ok standardInput
  | .file path => folder.read path

end TriggerSheet
