import GlyphLexer.Location

/-!
# Tokens

What the lexer produces: a type, the span of the lexeme in the source, and,
for string literals alone, the text that the literal stands for.

A token does not carry its lexeme. The lexeme is the slice of the source
between the two offsets, `Token.lexeme`, and is cut out where it is shown.

## Main definitions

* `TokenType`: The kinds of token, with `TokenType.all` in their order of
  declaration.
* `TokenType.name`, `TokenType.ofName?`: The written name of a kind, and the
  kind of a written name.
* `Token`: A token and its place.
* `Token.lexeme`: The piece of source that a token covers.
-/

namespace GlyphLexer

/-- The kinds of token. -/
inductive TokenType where
  | bang
  | assign
  | lt
  | gt
  | ne
  | eq
  | le
  | ge
  | plus
  | minus
  | slash
  | star
  | percent
  | plusAssign
  | minusAssign
  | slashAssign
  | starAssign
  | percentAssign
  | increment
  | decrement
  | ampersand
  | pipeBar
  | caret
  | shiftLeft
  | shiftRight
  | ampersandAssign
  | pipeAssign
  | caretAssign
  | shiftLeftAssign
  | shiftRightAssign
  | integer
  | float
  | string
  | identifier
  | backslash
  | lparen
  | rparen
  | lbracket
  | rbracket
  | lbrace
  | rbrace
  | dot
  | comma
  | semicolon
  | colon
  | eof
  deriving DecidableEq, Repr

namespace TokenType

/-- The name of a kind as listings write it. -/
def name : TokenType → Text
  | bang => text "BANG"
  | assign => text "ASSIGN"
  | lt => text "LT"
  | gt => text "GT"
  | ne => text "NE"
  | eq => text "EQ"
  | le => text "LE"
  | ge => text "GE"
  | plus => text "PLUS"
  | minus => text "MINUS"
  | slash => text "SLASH"
  | star => text "STAR"
  | percent => text "PERCENT"
  | plusAssign => text "PLUS_ASSIGN"
  | minusAssign => text "MINUS_ASSIGN"
  | slashAssign => text "SLASH_ASSIGN"
  | starAssign => text "STAR_ASSIGN"
  | percentAssign => text "PERCENT_ASSIGN"
  | increment => text "INCREMENT"
  | decrement => text "DECREMENT"
  | ampersand => text "AMPERSAND"
  | pipeBar => text "PIPE_BAR"
  | caret => text "CARET"
  | shiftLeft => text "SHIFT_LEFT"
  | shiftRight => text "SHIFT_RIGHT"
  | ampersandAssign => text "AMPERSAND_ASSIGN"
  | pipeAssign => text "PIPE_ASSIGN"
  | caretAssign => text "CARET_ASSIGN"
  | shiftLeftAssign => text "SHIFT_LEFT_ASSIGN"
  | shiftRightAssign => text "SHIFT_RIGHT_ASSIGN"
  | integer => text "INTEGER"
  | float => text "FLOAT"
  | string => text "STRING"
  | identifier => text "IDENTIFIER"
  | backslash => text "BACKSLASH"
  | lparen => text "LPAREN"
  | rparen => text "RPAREN"
  | lbracket => text "LBRACKET"
  | rbracket => text "RBRACKET"
  | lbrace => text "LBRACE"
  | rbrace => text "RBRACE"
  | dot => text "DOT"
  | comma => text "COMMA"
  | semicolon => text "SEMICOLON"
  | colon => text "COLON"
  | eof => text "EOF"

/-- Every kind, in the order of declaration. -/
def all : List TokenType :=
  [bang, assign, lt, gt, ne, eq, le, ge, plus, minus, slash, star, percent, plusAssign, minusAssign,
    slashAssign, starAssign, percentAssign, increment, decrement, ampersand, pipeBar, caret,
    shiftLeft, shiftRight, ampersandAssign, pipeAssign, caretAssign, shiftLeftAssign,
    shiftRightAssign, integer, float, string, identifier, backslash, lparen, rparen, lbracket,
    rbracket, lbrace, rbrace, dot, comma, semicolon, colon, eof]

/-- The kind of a written name. -/
def ofName? (t : Text) : Option TokenType := all.find? fun type => type.name == t

end TokenType

/-- A token: its kind, the location of its first unit, the location one past
    its last, and the text that a string literal stands for. -/
structure Token where
  type : TokenType
  start : Location
  stop : Location
  literal : Option Text
  deriving DecidableEq, Repr

/-- The piece of source that a token covers. -/
def Token.lexeme (source : Text) (t : Token) : Text := source.slice t.start.offset t.stop.offset

end GlyphLexer
