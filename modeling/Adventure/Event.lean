import Adventure.Position
import Adventure.Text.Quoted
import Adventure.Token

/-!
What the reading of a document logs.
-/

namespace Adventure

inductive Level
  | info
  | debug
  | trace
deriving DecidableEq, Inhabited

namespace Level

def label : Level → String
  | .info => "INFO"
  | .debug => "DEBUG"
  | .trace => "TRACE"

/-- A larger number is a finer level. -/
def detail : Level → Nat
  | .info => 0
  | .debug => 1
  | .trace => 2

end Level

structure Stats where
  statements : Nat
  scopes : Nat
  occurrences : Nat
  diagnostics : Nat
deriving DecidableEq, Inhabited

def Stats.describe (stats : Stats) : String :=
  "ParseStats \x7b statements: " ++ toString stats.statements ++
    ", scopes: " ++ toString stats.scopes ++
    ", occurrences: " ++ toString stats.occurrences ++
    ", diagnostics: " ++ toString stats.diagnostics ++ " \x7d"

inductive Event
  | started (characters : Nat)
  | lexed (token : Token)
  | advanced (token : Token)
  | included (target : String)
  | statement (id : String) (position : Position)
  | pushed (scope parent : Nat)
  | popped (scope parent : Nat)
  | resolved (occurrences undefined : Nat)
  | finished (stats : Stats)
deriving DecidableEq, Inhabited

namespace Event

def level : Event → Level
  | .started _ | .finished _ => .info
  | .lexed _ | .advanced _ => .trace
  | .included _ | .statement .. | .pushed .. | .popped .. | .resolved .. => .debug

def text : Event → String
  | .started characters => "Parsing document of " ++ toString characters ++ " characters"
  | .lexed token => "lexed " ++ token.kind.label ++ " " ++ Text.quoted token.text
  | .advanced token => "advance over " ++ token.kind.label ++ " " ++ Text.quoted token.text
  | .included target => "Found include of " ++ Text.quoted target
  | .statement id position =>
      "Statement '" ++ id ++ "' at " ++ toString position.line ++ ":" ++ toString position.character
  | .pushed scope parent => "Pushed scope " ++ toString scope ++ " under " ++ toString parent
  | .popped scope parent => "Popped scope " ++ toString scope ++ " back to " ++ toString parent
  | .resolved occurrences undefined =>
      "Resolved " ++ toString occurrences ++ " occurrences, " ++ toString undefined ++
        " still undefined"
  | .finished stats => "Parsed document: " ++ stats.describe

def line (event : Event) : String := event.level.label ++ " " ++ event.text

def atLevel (level : Level) (events : List Event) : List Event :=
  events.filter (·.level.detail ≤ level.detail)

end Event

end Adventure
