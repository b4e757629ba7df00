import Adventure.Grammar

/-!
The grammar of the language that adventures are written in: expressions and statements much as in C,
with classes, verbs and the host's type keywords.
-/

namespace Adventure.Grammar

def separators : List Entry :=
  [":", ";", ",", ")", "]", "\x7d", "else", "(end)"].map (Entry.symbol · Power.none)

def arithmetic : List Entry :=
  [.operator "+" Power.additive .leftAssociative,
   .operator "-" Power.additive .leftAssociative,
   .operator "*" Power.multiplicative .leftAssociative,
   .operator "/" Power.multiplicative .leftAssociative,
   .operator "%" Power.multiplicative .leftAssociative]

def relational : List Entry :=
  ["==", "!=", "<", "<=", ">", ">="].map (Entry.operator · Power.relational .leftAssociative)

def bitwise : List Entry :=
  [.operator "<<" Power.shift .leftAssociative,
   .operator ">>" Power.shift .leftAssociative,
   .operator "&" Power.bitwiseAnd .leftAssociative,
   .operator "^" Power.bitwiseXor .leftAssociative,
   .operator "|" Power.bitwiseOr .leftAssociative]

def logical : List Entry :=
  ["&&", "||"].map (Entry.operator · Power.logical .rightAssociative)

def access : List Entry :=
  [.operator "." Power.member .member,
   .operator "[" Power.member .index,
   .operator "(" Power.member .call]

def operands : List Entry :=
  [.operand "-" .unaryOperator,
   .operand "!" .unaryOperator,
   .operand "~" .unaryOperator,
   .operand "(" .group,
   .operand "(literal)" .literal,
   .constant "NULL",
   .operand "this" .thisObject,
   .operand "super" .superObject]

def assignments : List Entry :=
  ["=", "+=", "-=", "*=", "/=", "%="].map Entry.assignment ++
    ["++", "--"].map (Entry.operator · Power.assignment .step)

def statements : List Entry :=
  [.statement "\x7b" .block,
   .statement "verb" .verb,
   .statement "class" .classDefinition,
   .statement "return" .returning,
   .statement "while" .guarded,
   .statement "fetch" .guarded,
   .statement "with" .guarded,
   .statement "switch" .guarded,
   .statement "do" .doWhile,
   .statement "if" .ifElse,
   .statement "for" .forLoop,
   .statement "case" .caseLabel,
   .statement "break" .bare,
   .statement "default" .bare,
   .statement "quit" .bare,
   .statement "halt" .bare,
   .statement "int" (.declaration .int),
   .statement "string" (.declaration .string),
   .statement "object" (.declaration .object),
   .statement "void" (.declaration .void)]

def entries : List Entry :=
  separators ++ arithmetic ++ relational ++ bitwise ++ logical ++
    [.operator "?" Power.ternary .ternary] ++ access ++ operands ++ assignments ++ statements

def standard : Grammar := ofEntries entries

end Adventure.Grammar
