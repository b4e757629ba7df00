import Adventure.Token

/-!
The lexical rules. A rule looks at the text ahead and says how many characters of it belong to one
lexeme of its kind, zero when none do. The longest lexeme wins, and of equally long ones the
earliest rule's.
-/

namespace Adventure.Token

def isNameStart (c : Char) : Bool := c.isAlpha || c == '_'

def isNamePart (c : Char) : Bool := c.isAlphanum || c == '_'

def isLineEnd (c : Char) : Bool := c == '\r' || c == '\n'

def isSpace (c : Char) : Bool := c == ' ' || c == '\t' || c == '\r' || c == '\n'

def runLength (member : Char → Bool) (text : List Char) : Nat := (text.takeWhile member).length

def commentCloseLength : List Char → Option Nat
  | [] => none
  | '*' :: '/' :: _ => some 2
  | _ :: rest => (commentCloseLength rest).map (· + 1)

def blockCommentLength : List Char → Nat
  | '/' :: '*' :: rest => (commentCloseLength rest).elim 0 (· + 2)
  | _ => 0

def lineCommentLength : List Char → Nat
  | '/' :: '/' :: rest => runLength (!isLineEnd ·) rest + 2
  | _ => 0

def nameLength : List Char → Nat
  | c :: rest => if isNameStart c then runLength isNamePart rest + 1 else 0
  | [] => 0

def integerLength (text : List Char) : Nat := runLength Char.isDigit text

/-- A string runs to the next quote, over line ends too, or else to the end of the text. -/
def stringLength : List Char → Nat
  | '"' :: rest =>
      let inner := runLength (· != '"') rest
      if inner < rest.length then inner + 2 else inner + 1
  | _ => 0

def directiveWords : List String := ["include", "define", "ifdef", "ifndef", "endif"]

def directiveLength : List Char → Nat
  | '#' :: rest =>
      if directiveWords.any (·.toList.isPrefixOf rest) then runLength (!isLineEnd ·) rest + 1 else 0
  | _ => 0

/-- Every operator stands after those it is the beginning of. -/
def operators : List String :=
  ["<<", ">>", "++", "--", "&&", "&", "||", "|", "^", "<=", ">=", "<", ">", "!=", "==", "!", "~",
   "%=", "/=", "*=", "+=", "-=", "+", "-", "%", "/", "*", "=", "(", ")", "\x7b", "\x7d", "[", "]",
   ",", ":", "?", ";", "."]

def operatorLength (text : List Char) : Nat :=
  ((operators.find? (·.toList.isPrefixOf text)).map (·.length)).getD 0

def spaceLength (text : List Char) : Nat := runLength isSpace text

structure Rule where
  kind : TokenKind
  length : List Char → Nat

def rules : List Rule :=
  [⟨.comment, blockCommentLength⟩,
   ⟨.comment, lineCommentLength⟩,
   ⟨.name, nameLength⟩,
   ⟨.integer, integerLength⟩,
   ⟨.string, stringLength⟩,
   ⟨.directive, directiveLength⟩,
   ⟨.operator, operatorLength⟩,
   ⟨.whitespace, spaceLength⟩]

def longest : List Rule → List Char → Option (TokenKind × Nat)
  | [], _ => none
  | rule :: others, text =>
      let length := rule.length text
      match longest others text with
      | none => if 0 < length then some (rule.kind, length) else none
      | some (kind, other) => if other ≤ length then some (rule.kind, length) else some (kind, other)

/-- Kind and length of the lexeme at the start of a text; a character that no rule knows stands
alone. -/
def lexeme (text : List Char) : TokenKind × Nat :=
  (longest rules text).getD (.invalid, 1)

theorem longest_pos {rules : List Rule} {text : List Char} {kind : TokenKind} {length : Nat}
    (found : longest rules text = some (kind, length)) : 0 < length := by
  induction rules generalizing kind length with
  | nil => simp [longest] at found
  | cons rule others ih =>
      simp only [longest] at found
      split at found
      · split at found <;> simp_all
      · rename_i kind' other inner
        have positive := ih inner
        split at found <;> simp only [Option.some.injEq, Prod.mk.injEq] at found <;> omega

theorem lexeme_pos (text : List Char) : 0 < (lexeme text).2 := by
  unfold lexeme
  cases found : longest rules text with
  | none => simp
  | some best => exact longest_pos found

end Adventure.Token
