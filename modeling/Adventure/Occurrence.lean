import Adventure.Options
import Adventure.Scope

/-!
Names that were read before anything in reach defined them. They are kept with their scope and
looked up again once the whole document has been read.
-/

namespace Adventure

structure Occurrence where
  name : String
  span : Span
  scope : Nat
deriving DecidableEq, Inhabited

namespace Occurrence

/-- Still without a definition, in reach or at the top of an imported document, and not supplied by
the game engine. -/
def isUnresolved (scopes : ScopeTree) (grammar : Grammar) (options : Options)
    (imported : List Scope) (occurrence : Occurrence) : Bool :=
  (scopes.find occurrence.scope occurrence.name grammar).isUndefined &&
    !imported.any (·.declares occurrence.name) &&
    !options.isIntrinsic occurrence.name

def undefined (occurrence : Occurrence) : Diagnostic :=
  ⟨.undefined occurrence.name, occurrence.span, .warning⟩

def resolve (scopes : ScopeTree) (occurrences : List Occurrence) (grammar : Grammar)
    (options : Options) (imported : List Scope) : Diagnostics :=
  (occurrences.filter (isUnresolved scopes grammar options imported)).map undefined

def analyze (scopes : ScopeTree) (occurrences : List Occurrence) (grammar : Grammar)
    (options : Options) : Diagnostics :=
  resolve scopes occurrences grammar options []

end Occurrence

end Adventure
