import MiniLex.Token.Kind

/-!
# Tokens

- `Token`: a kind, and the text the token was read from where its kind does not fix it.
- `Token.word`: the token of an identifier-shaped word.
- `Token.lexeme?`: the text of a token in a source.
- `Token.display`: the line under which a token is printed.
-/

namespace MiniLex

/-- A token of the scanned language. -/
structure Token where
  kind : Kind
  spelling : Option String
deriving DecidableEq

namespace Token

/-- The token of a kind that carries no text. -/
def plain (k : Kind) : Token := ⟨k, none⟩

/-- The token of a kind with the text it was read from. -/
def spelled (k : Kind) (cs : List Char) : Token := ⟨k, some (String.ofList cs)⟩

/-- The token that ends every source. -/
def eof : Token := plain .eof

/-- Whether the token is of the kind that ends a source. -/
def isEof (t : Token) : Bool :=
  t.kind == .eof

/-- The token of an identifier-shaped word; a reserved word needs no spelling. -/
def word (w : String) : Token :=
  match Kind.ofWord w with
  | .identifier => ⟨.identifier, some w⟩
  | k => plain k

/-- The text of the token in a source: its spelling, or else the text that its kind fixes. -/
def lexeme? (t : Token) : Option (List Char) :=
  match t.spelling with
  | some s => some s.toList
  | none => t.kind.fixedText?

/-- The token as it is printed: the name of its kind, with the spelling in parentheses. -/
def display (t : Token) : String :=
  match t.spelling with
  | some s => t.kind.name ++ " (" ++ s ++ ")"
  | none => t.kind.name

end Token

end MiniLex
