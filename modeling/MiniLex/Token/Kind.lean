/-!
# Kinds of tokens

The kinds of token of the scanned language, with the fixed text of those that have one.

- `Keyword`, `Mark`: the reserved words, and the punctuation and operator marks, each with its
  text; `Keyword.ofText?` and `Mark.longest?` read the text back.
- `Kind`: all kinds of token, with the name under which each is printed.
-/

namespace MiniLex

/-! ## Reserved words -/

/-- The reserved words. -/
inductive Keyword where
  | constWord | voidWord | elseWord | ifWord | intWord | whileWord | returnWord | charWord
  | doubleWord | forWord | doWord | gotoWord | switchWord | caseWord | breakWord | defaultWord
deriving DecidableEq

namespace Keyword

/-- Every reserved word. -/
def all : List Keyword :=
  [.constWord, .voidWord, .elseWord, .ifWord, .intWord, .whileWord, .returnWord, .charWord,
    .doubleWord, .forWord, .doWord, .gotoWord, .switchWord, .caseWord, .breakWord, .defaultWord]

/-- The word as it is written in a source. -/
def text : Keyword → String
  | .constWord => "const"
  | .voidWord => "void"
  | .elseWord => "else"
  | .ifWord => "if"
  | .intWord => "int"
  | .whileWord => "while"
  | .returnWord => "return"
  | .charWord => "char"
  | .doubleWord => "double"
  | .forWord => "for"
  | .doWord => "do"
  | .gotoWord => "goto"
  | .switchWord => "switch"
  | .caseWord => "case"
  | .breakWord => "break"
  | .defaultWord => "default"

/-- The word as the name of its kind. -/
def name : Keyword → String
  | .constWord => "Const"
  | .voidWord => "Void"
  | .elseWord => "Else"
  | .ifWord => "If"
  | .intWord => "Int"
  | .whileWord => "While"
  | .returnWord => "Return"
  | .charWord => "Char"
  | .doubleWord => "Double"
  | .forWord => "For"
  | .doWord => "Do"
  | .gotoWord => "Goto"
  | .switchWord => "Switch"
  | .caseWord => "Case"
  | .breakWord => "Break"
  | .defaultWord => "Default"

/-- The reserved word with a given text, if there is one. -/
def ofText? (w : String) : Option Keyword :=
  all.find? fun k => k.text == w

end Keyword

/-! ## Punctuation and operators -/

/-- The punctuation and operator marks. -/
inductive Mark where
  | equals | lessEqual | greaterEqual | notEqual | increment | decrement | addAssign | subAssign
  | multAssign | divAssign | remAssign | and | or | leftBrace | rightBrace | leftBracket
  | rightBracket | leftParen | rightParen | semicolon | comma | colon | assign | less | greater
  | not | plus | minus | multiply | divide | remainder
deriving DecidableEq

namespace Mark

/-- Every mark, those of two characters before those of one. -/
def all : List Mark :=
  [.equals, .lessEqual, .greaterEqual, .notEqual, .increment, .decrement, .addAssign, .subAssign,
    .multAssign, .divAssign, .remAssign, .and, .or, .leftBrace, .rightBrace, .leftBracket,
    .rightBracket, .leftParen, .rightParen, .semicolon, .comma, .colon, .assign, .less, .greater,
    .not, .plus, .minus, .multiply, .divide, .remainder]

/-- The mark as it is written in a source. -/
def text : Mark → List Char
  | .equals => ['=', '=']
  | .lessEqual => ['<', '=']
  | .greaterEqual => ['>', '=']
  | .notEqual => ['!', '=']
  | .increment => ['+', '+']
  | .decrement => ['-', '-']
  | .addAssign => ['+', '=']
  | .subAssign => ['-', '=']
  | .multAssign => ['*', '=']
  | .divAssign => ['/', '=']
  | .remAssign => ['%', '=']
  | .and => ['&', '&']
  | .or => ['|', '|']
  | .leftBrace => ['{']
  | .rightBrace => ['}']
  | .leftBracket => ['[']
  | .rightBracket => [']']
  | .leftParen => ['(']
  | .rightParen => [')']
  | .semicolon => [';']
  | .comma => [',']
  | .colon => [':']
  | .assign => ['=']
  | .less => ['<']
  | .greater => ['>']
  | .not => ['!']
  | .plus => ['+']
  | .minus => ['-']
  | .multiply => ['*']
  | .divide => ['/']
  | .remainder => ['%']

/-- The mark as the name of its kind. -/
def name : Mark → String
  | .equals => "Equals"
  | .lessEqual => "LessEqual"
  | .greaterEqual => "GreaterEqual"
  | .notEqual => "NotEqual"
  | .increment => "Increment"
  | .decrement => "Decrement"
  | .addAssign => "AddAssign"
  | .subAssign => "SubAssign"
  | .multAssign => "MultAssign"
  | .divAssign => "DivAssign"
  | .remAssign => "RemAssign"
  | .and => "And"
  | .or => "Or"
  | .leftBrace => "LeftBrace"
  | .rightBrace => "RightBrace"
  | .leftBracket => "LeftBracket"
  | .rightBracket => "RightBracket"
  | .leftParen => "LeftParen"
  | .rightParen => "RightParen"
  | .semicolon => "Semicolon"
  | .comma => "Comma"
  | .colon => "Colon"
  | .assign => "Assign"
  | .less => "Less"
  | .greater => "Greater"
  | .not => "Not"
  | .plus => "Plus"
  | .minus => "Minus"
  | .multiply => "Multiply"
  | .divide => "Divide"
  | .remainder => "Remainder"

/-- The longest mark that a text begins with. Since `all` lists the longer marks first, the first
that fits is the longest. -/
def longest? (cs : List Char) : Option Mark :=
  all.find? fun m => m.text.isPrefixOf cs

end Mark

/-! ## Kinds -/

/-- The kinds of token: the end of the source, the kinds with a fixed text, and those that carry
the text they were read from. -/
inductive Kind where
  | eof
  | keyword (w : Keyword)
  | mark (m : Mark)
  | identifier
  | intLiteral
  | charLiteral
  | stringLiteral
  | doubleLiteral
deriving DecidableEq

namespace Kind

/-- The name under which the kind is printed. -/
def name : Kind → String
  | .eof => "Eof"
  | .keyword w => w.name
  | .mark m => m.name
  | .identifier => "Identifier"
  | .intLiteral => "IntLiteral"
  | .charLiteral => "CharLiteral"
  | .stringLiteral => "StringLiteral"
  | .doubleLiteral => "DoubleLiteral"

/-- Every kind. -/
def all : List Kind :=
  .eof :: Keyword.all.map .keyword ++ Mark.all.map .mark
    ++ [.identifier, .intLiteral, .charLiteral, .stringLiteral, .doubleLiteral]

/-- The kind with a given name, if there is one. -/
def ofName? (n : String) : Option Kind :=
  all.find? fun k => k.name == n

/-- Whether the kind is a reserved word's. -/
def isKeyword : Kind → Bool
  | .keyword _ => true
  | _ => false

/-- Whether tokens of the kind carry the text they were read from. -/
def carriesSpelling : Kind → Bool
  | .identifier | .intLiteral | .charLiteral | .stringLiteral | .doubleLiteral => true
  | _ => false

/-- The text that every token of the kind has in a source, if the kind fixes it. -/
def fixedText? : Kind → Option (List Char)
  | .keyword w => some w.text.toList
  | .mark m => some m.text
  | _ => none

/-- The kind of a word: a reserved word's own, or an identifier's. -/
def ofWord (w : String) : Kind :=
  match Keyword.ofText? w with
  | some k => .keyword k
  | none => .identifier

end Kind

end MiniLex
