/-!
# Kinds of token

A token is a keyword, a literal value, an identifier, a quote, or one of the symbols. Every kind
has a name in capitals; keywords and symbols also have the text they are written with.
-/

namespace ClassLang

/-- The reserved words. -/
inductive Keyword where
  | publicKw | sealedKw | abstractKw | classKw | extendsKw | staticKw | mutKw | funcKw
  | constructorKw | operatorKw | newKw | asmKw | ifKw | constexprKw | elseKw | whileKw | forKw
  | foreachKw | inKw | switchKw | caseKw | defaultKw | breakKw | returnKw
  deriving DecidableEq, Repr

namespace Keyword

/-- Every keyword, once. -/
def all : List Keyword :=
  [publicKw, sealedKw, abstractKw, classKw, extendsKw, staticKw, mutKw, funcKw, constructorKw,
    operatorKw, newKw, asmKw, ifKw, constexprKw, elseKw, whileKw, forKw, foreachKw, inKw,
    switchKw, caseKw, defaultKw, breakKw, returnKw]

/-- The word a keyword is written with. -/
def text : Keyword → String
  | publicKw => "public"
  | sealedKw => "sealed"
  | abstractKw => "abstract"
  | classKw => "class"
  | extendsKw => "extends"
  | staticKw => "static"
  | mutKw => "mut"
  | funcKw => "func"
  | constructorKw => "constructor"
  | operatorKw => "operator"
  | newKw => "new"
  | asmKw => "asm"
  | ifKw => "if"
  | constexprKw => "constexpr"
  | elseKw => "else"
  | whileKw => "while"
  | forKw => "for"
  | foreachKw => "foreach"
  | inKw => "in"
  | switchKw => "switch"
  | caseKw => "case"
  | defaultKw => "default"
  | breakKw => "break"
  | returnKw => "return"

/-- The name of a keyword's kind: the word in capitals, but for `mut` and `func`, spelled out. -/
def name : Keyword → String
  | publicKw => "PUBLIC"
  | sealedKw => "SEALED"
  | abstractKw => "ABSTRACT"
  | classKw => "CLASS"
  | extendsKw => "EXTENDS"
  | staticKw => "STATIC"
  | mutKw => "MUTABLE"
  | funcKw => "FUNCTION"
  | constructorKw => "CONSTRUCTOR"
  | operatorKw => "OPERATOR"
  | newKw => "NEW"
  | asmKw => "ASM"
  | ifKw => "IF"
  | constexprKw => "CONSTEXPR"
  | elseKw => "ELSE"
  | whileKw => "WHILE"
  | forKw => "FOR"
  | foreachKw => "FOREACH"
  | inKw => "IN"
  | switchKw => "SWITCH"
  | caseKw => "CASE"
  | defaultKw => "DEFAULT"
  | breakKw => "BREAK"
  | returnKw => "RETURN"

/-- The keyword written with a word. -/
def ofText? (word : String) : Option Keyword :=
  all.find? (·.text == word)

end Keyword

/-- Brackets, separators and operators. -/
inductive Symbol where
  | leftBrace | rightBrace | leftParen | rightParen | leftBracket | rightBracket
  | lessOrEqual | less | greaterOrEqual | greater | notEqual | equal
  | not | and | or
  | set | setAdd | setSub | setMult | setDiv | setMod | increment | decrement
  | add | sub | mult | div | mod
  | bitAnd | bitOr | bitXor | bitNot | shiftLeft | shiftRight
  | comma | dot | colon | semicolon
  deriving DecidableEq, Repr

namespace Symbol

/-- Every symbol, once, those of two characters before those of one. -/
def all : List Symbol :=
  [lessOrEqual, shiftLeft, greaterOrEqual, shiftRight, notEqual, equal, and, or, setAdd, setSub,
    setMult, setDiv, setMod, increment, decrement,
    leftBrace, rightBrace, leftParen, rightParen, leftBracket, rightBracket, less, greater, not,
    set, add, sub, mult, div, mod, bitAnd, bitOr, bitXor, bitNot, comma, dot, colon, semicolon]

/-- What a symbol is written with. -/
def text : Symbol → String
  | leftBrace => "\x7b"
  | rightBrace => "\x7d"
  | leftParen => "("
  | rightParen => ")"
  | leftBracket => "["
  | rightBracket => "]"
  | lessOrEqual => "<="
  | less => "<"
  | greaterOrEqual => ">="
  | greater => ">"
  | notEqual => "!="
  | equal => "=="
  | not => "!"
  | and => "&&"
  | or => "||"
  | set => "="
  | setAdd => "+="
  | setSub => "-="
  | setMult => "*="
  | setDiv => "/="
  | setMod => "%="
  | increment => "++"
  | decrement => "--"
  | add => "+"
  | sub => "-"
  | mult => "*"
  | div => "/"
  | mod => "%"
  | bitAnd => "&"
  | bitOr => "|"
  | bitXor => "^"
  | bitNot => "~"
  | shiftLeft => "<<"
  | shiftRight => ">>"
  | comma => ","
  | dot => "."
  | colon => ":"
  | semicolon => ";"

/-- The name of a symbol's kind. -/
def name : Symbol → String
  | leftBrace => "LBRACE"
  | rightBrace => "RBRACE"
  | leftParen => "LPAREN"
  | rightParen => "RPAREN"
  | leftBracket => "LBRACKET"
  | rightBracket => "RBRACKET"
  | lessOrEqual => "LEQ"
  | less => "LT"
  | greaterOrEqual => "GEQ"
  | greater => "GT"
  | notEqual => "NEQ"
  | equal => "EQ"
  | not => "NOT"
  | and => "AND"
  | or => "OR"
  | set => "SET"
  | setAdd => "SET_ADD"
  | setSub => "SET_SUB"
  | setMult => "SET_MULT"
  | setDiv => "SET_DIV"
  | setMod => "SET_MOD"
  | increment => "INC"
  | decrement => "DEC"
  | add => "ADD"
  | sub => "SUB"
  | mult => "MULT"
  | div => "DIV"
  | mod => "MOD"
  | bitAnd => "BIT_AND"
  | bitOr => "BIT_OR"
  | bitXor => "BIT_XOR"
  | bitNot => "BIT_NOT"
  | shiftLeft => "BIT_LSHIFT"
  | shiftRight => "BIT_RSHIFT"
  | comma => "COMMA"
  | dot => "DOT"
  | colon => "COLON"
  | semicolon => "SEMICOLON"

end Symbol

/-- What a token is, apart from its text. -/
inductive Kind where
  | keyword (k : Keyword)
  | value
  | identifier
  | quote
  | symbol (s : Symbol)
  deriving DecidableEq, Repr

namespace Kind

instance : Coe Keyword Kind := ⟨keyword⟩

instance : Coe Symbol Kind := ⟨symbol⟩

/-- The name of a kind, in capitals. -/
def name : Kind → String
  | keyword k => k.name
  | value => "VAL"
  | identifier => "IDENTIFIER"
  | quote => "QUOTE"
  | symbol s => s.name

end Kind

end ClassLang
