import OnePass.Source.Span

/-
  Tokens.

  A kind is either a fixed word or symbol, written in one
  way only, or one of the three classes identifier, number
  and string. A token records its kind, the text it was
  written with and where it stands.

  Key definitions include:
    * `Kind`
    * `Kind.text`
    * `Kind.keywords`
    * `Kind.symbols`
    * `Kind.isTypeName`
    * `Token`
-/

------------------------------------------------------------
-- Kinds
------------------------------------------------------------

namespace OnePass

inductive Kind where
  | kwVoid
  | kwInt
  | kwByte
  | kwBool
  /- The letter after a number that makes it a byte. -/
  | byteSuffix
  | kwConst
  | kwAnd
  | kwOr
  | kwNot
  | kwTrue
  | kwFalse
  | kwReturn
  | kwIf
  | kwElse
  | kwWhile
  | kwBreak
  | kwContinue
  | identifier
  | number
  | string
  | plus
  | minus
  | star
  | slash
  | assign
  | equal
  | notEqual
  | less
  | lessEqual
  | greater
  | greaterEqual
  | leftParen
  | rightParen
  | leftBrace
  | rightBrace
  | comma
  | semicolon
deriving DecidableEq, Repr

namespace Kind

/-
  How a word or symbol is written; for a class of tokens,
  the name of the class.
-/
def text : Kind → String
| kwVoid => "void"
| kwInt => "int"
| kwByte => "byte"
| kwBool => "bool"
| byteSuffix => "b"
| kwConst => "const"
| kwAnd => "and"
| kwOr => "or"
| kwNot => "not"
| kwTrue => "true"
| kwFalse => "false"
| kwReturn => "return"
| kwIf => "if"
| kwElse => "else"
| kwWhile => "while"
| kwBreak => "break"
| kwContinue => "continue"
| identifier => "identifier"
| number => "number"
| string => "string"
| plus => "+"
| minus => "-"
| star => "*"
| slash => "/"
| assign => "="
| equal => "=="
| notEqual => "!="
| less => "<"
| lessEqual => "<="
| greater => ">"
| greaterEqual => ">="
| leftParen => "("
| rightParen => ")"
| leftBrace => "\x7b"
| rightBrace => "\x7d"
| comma => ","
| semicolon => ";"

/- The kinds whose only text is a word. -/
def keywords : List Kind :=
  [kwVoid, kwInt, kwByte, kwBool, byteSuffix, kwConst,
    kwAnd, kwOr, kwNot, kwTrue, kwFalse, kwReturn, kwIf,
    kwElse, kwWhile, kwBreak, kwContinue]

/-
  The kinds whose only text is a symbol. A symbol comes
  before those it extends, so that the first one that fits
  is the longest.
-/
def symbols : List Kind :=
  [equal, notEqual, lessEqual, greaterEqual, plus, minus,
    star, slash, assign, less, greater, leftParen,
    rightParen, leftBrace, rightBrace, comma, semicolon]

/- The words that name the type of a variable. -/
def isTypeName : Kind → Bool
| kwInt | kwByte | kwBool => true
| _ => false

end Kind

end OnePass

------------------------------------------------------------
-- Tokens
------------------------------------------------------------

namespace OnePass

structure Token where
  kind : Kind
  text : String
  span : Span
deriving DecidableEq, Repr

end OnePass
