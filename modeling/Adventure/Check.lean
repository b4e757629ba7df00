import Adventure.Diagnostic.Render
import Adventure.Document
import Adventure.Files

/-!
The checker: reads files with the files they include, and shows their diagnostics in the order of
their positions. How files are read is an argument, so that the same checker runs on a disk and on
a tree in memory.
-/

namespace Adventure.Check

inductive Failure
  | usage
  | unreadable (path : String) (failure : ReadFailure)
  | unshowable (error : Diagnostic.RenderError)
deriving DecidableEq, Inhabited

namespace Failure

def message : Failure → String
  | .usage => "Error: Usage: floyd-check <file>..."
  | .unreadable path failure => "Error: Failed to read " ++ path ++ ": " ++ failure.reason
  | .unshowable error => error.message

/-- The status that a run ends with: a diagnostic that cannot be shown breaks the run off. -/
def status : Failure → Nat
  | .usage | .unreadable .. => 1
  | .unshowable _ => 101

end Failure

def options : Options := Options.withoutAnalysis

def parse (source : String) : Document := Document.parse Grammar.standard options source

/-- In order of the positions; of diagnostics at one position, the earlier first. -/
def ordered (diagnostics : Diagnostics) : Diagnostics :=
  diagnostics.mergeSort fun first second => first.span.start.le second.span.start

def diagnostics (document : Document) (imports : List Document) : Diagnostics :=
  ordered (document.diagnostics ++ document.resolveAcross imports options)

def listing (source file : String) : Diagnostics → String × Except Failure Unit
  | [] => ("", .ok ())
  | diagnostic :: others =>
      match diagnostic.display source file with
      | .error error => ("", .error (.unshowable error))
      | .ok shown =>
          let (rest, outcome) := listing source file others
          (shown ++ rest, outcome)

variable {m : Type → Type} [Monad m] (read : String → m (Except ReadFailure String))

/-- The documents that `file` includes; those that cannot be read are left out. -/
def readImports (file : String) : List String → m (List Document)
  | [] => return []
  | target :: others => do
      let found ← read (includePath file target)
      let documents ← readImports file others
      match found with
      | .ok source => return parse source :: documents
      | .error _ => return documents

def checkFile (file : String) : m (String × Except Failure Bool) := do
  match ← read file with
  | .error failure => return ("", .error (.unreadable file failure))
  | .ok source =>
      let document := parse source
      let imports ← readImports read file document.imports
      let found := diagnostics document imports
      let (text, outcome) := listing source file found
      return (text, outcome.map fun _ => found.hasErrors)

def checkFiles : List String → m (String × Except Failure Bool)
  | [] => return ("", .ok false)
  | file :: others => do
      match ← checkFile read file with
      | (text, .error failure) => return (text, .error failure)
      | (text, .ok failed) =>
          let (rest, outcome) ← checkFiles others
          return (text ++ rest, outcome.map (failed || ·))

structure Outcome where
  output : String
  errors : String
  status : Nat
deriving DecidableEq, Inhabited

def Outcome.ofResult (output : String) : Except Failure Bool → Outcome
  | .ok failed => ⟨output, "", if failed then 1 else 0⟩
  | .error failure => ⟨output, failure.message ++ "\n", failure.status⟩

def run (files : List String) : m Outcome := do
  if files.isEmpty then
    return .ofResult "" (.error .usage)
  else
    let (output, result) ← checkFiles read files
    return .ofResult output result

end Adventure.Check
