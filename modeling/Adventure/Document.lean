import Adventure.Grammar.Standard
import Adventure.Parse.Statement

/-!
Documents. Reading a document never fails: what is malformed leaves a partial tree and diagnostics.
-/

namespace Adventure

structure Document where
  statements : List Stmt
  scopes : ScopeTree
  occurrences : List Occurrence
  diagnostics : Diagnostics
  /-- The targets of the include directives, in order. -/
  imports : List String

namespace Document

def context (grammar : Grammar) (options : Options) (source : String) : Context :=
  { grammar, options, finish := (Cursor.ofSource source).readAll.2.position }

def start (grammar : Grammar) (options : Options) (source : String) : ParseState :=
  ParseState.start (context grammar options source) (tokens source)

def run (grammar : Grammar) (options : Options) (source : String) : List Stmt × ParseState :=
  (ParseM.statements (ParseM.statement options.maxDepth)).run (context grammar options source)
    (start grammar options source)

/-- What the reading of one document made, before names are looked up again. -/
def ofRun (outcome : List Stmt × ParseState) : Document :=
  { statements := outcome.1
    scopes := outcome.2.scopes
    occurrences := outcome.2.occurrences
    diagnostics := outcome.2.diagnostics
    imports := outcome.2.imports }

def undefinedNames (grammar : Grammar) (options : Options) (document : Document) : Diagnostics :=
  Occurrence.analyze document.scopes document.occurrences grammar options

def analyzed (grammar : Grammar) (options : Options) (document : Document) : Document :=
  if options.analyze then
    { document with
      diagnostics := document.diagnostics ++ document.undefinedNames grammar options }
  else document

theorem statements_analyzed (grammar : Grammar) (options : Options) (document : Document) :
    (document.analyzed grammar options).statements = document.statements := by
  unfold analyzed
  split <;> rfl

theorem scopes_analyzed (grammar : Grammar) (options : Options) (document : Document) :
    (document.analyzed grammar options).scopes = document.scopes := by
  unfold analyzed
  split <;> rfl

theorem occurrences_analyzed (grammar : Grammar) (options : Options) (document : Document) :
    (document.analyzed grammar options).occurrences = document.occurrences := by
  unfold analyzed
  split <;> rfl

def parse (grammar : Grammar) (options : Options) (source : String) : Document :=
  (ofRun (run grammar options source)).analyzed grammar options

def hasErrors (document : Document) : Bool := document.diagnostics.hasErrors

def stats (document : Document) : Stats :=
  { statements := document.statements.length
    scopes := document.scopes.size
    occurrences := document.occurrences.length
    diagnostics := document.diagnostics.length }

def events (grammar : Grammar) (options : Options) (source : String) : List Event :=
  let outcome := run grammar options source
  let document := ofRun outcome
  let resolved :=
    if options.analyze then
      [Event.resolved document.occurrences.length (document.undefinedNames grammar options).length]
    else []
  .started source.length :: outcome.2.events.toList ++ resolved ++
    [.finished (document.analyzed grammar options).stats]

/-- Warnings about names that neither the document nor the top level of any of `imports` defines. -/
def resolveAcross (document : Document) (imports : List Document) (options : Options) :
    Diagnostics :=
  Occurrence.resolve document.scopes document.occurrences Grammar.standard options
    (imports.map (·.scopes.root))

end Document

end Adventure
