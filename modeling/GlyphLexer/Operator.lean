import GlyphLexer.Token

/-!
# Operators and escapes

The two fixed vocabularies of the language: the operators, with the kind of
token each one is, and the characters that may follow a backslash in a string
literal, with what each one stands for.

The operators come in tables by length, and the longest that the text begins
with is the one that is read. Every beginning of an operator is an operator
again, so no text is left that begins one and completes none.

## Main definitions

* `Operator.three`, `Operator.two`, `Operator.one`: The tables by length.
* `Operator.longest?`: The longest operator that a text begins with.
* `Escape.table`, `Escape.decode?`: What a character after a backslash stands
  for.

## Theorems

* `Operator.ne_nil_of_longest?`: An operator has at least one unit.
* `Operator.isPrefix_of_longest?`: The operator found is what the text begins
  with.
-/

namespace GlyphLexer

namespace Operator

/-- The operators of three units. -/
def three : List (Text × TokenType) :=
  [(text "<<=", .shiftLeftAssign), (text ">>=", .shiftRightAssign)]

/-- The operators of two units. -/
def two : List (Text × TokenType) :=
  [(text "<<", .shiftLeft), (text ">>", .shiftRight), (text "<=", .le), (text ">=", .ge),
    (text "==", .eq), (text "!=", .ne), (text "++", .increment), (text "--", .decrement),
    (text "+=", .plusAssign), (text "-=", .minusAssign), (text "*=", .starAssign),
    (text "/=", .slashAssign), (text "%=", .percentAssign), (text "&=", .ampersandAssign),
    (text "|=", .pipeAssign), (text "^=", .caretAssign)]

/-- The operators of one unit, brackets and punctuation among them. -/
def one : List (Text × TokenType) :=
  [(text "!", .bang), (text "=", .assign), (text "<", .lt), (text ">", .gt), (text "+", .plus),
    (text "-", .minus), (text "*", .star), (text "/", .slash), (text "%", .percent),
    (text "&", .ampersand), (text "|", .pipeBar), (text "^", .caret), (text "\\", .backslash),
    (text "(", .lparen), (text ")", .rparen), (text "[", .lbracket), (text "]", .rbracket),
    (text "\x7b", .lbrace), (text "\x7d", .rbrace), (text ".", .dot), (text ",", .comma),
    (text ";", .semicolon), (text ":", .colon)]

/-- Every operator, longer ones first. -/
def all : List (Text × TokenType) := three ++ two ++ one

/-- The longest operator that a text begins with, and its kind. -/
def longest? (t : Text) : Option (Text × TokenType) := all.find? fun entry => entry.1.isPrefixOf t

theorem mem_of_longest? {t : Text} {entry : Text × TokenType} (h : longest? t = some entry) :
    entry ∈ all :=
  List.mem_of_find?_eq_some h

theorem ne_nil_of_mem : ∀ entry ∈ all, entry.1 ≠ [] := by decide

theorem ne_nil_of_longest? {t : Text} {entry : Text × TokenType} (h : longest? t = some entry) :
    entry.1 ≠ [] :=
  ne_nil_of_mem entry (mem_of_longest? h)

theorem isPrefix_of_longest? {t : Text} {entry : Text × TokenType} (h : longest? t = some entry) :
    entry.1 <+: t := by
  have := List.find?_some h
  exact List.isPrefixOf_iff_prefix.1 this

end Operator

namespace Escape

/-- The characters that may follow a backslash, each with the unit that the
    pair stands for. -/
def table : List (CodeUnit × CodeUnit) :=
  [('a', 7), ('b', 8), ('e', 27), ('f', 12), ('n', 10), ('r', 13), ('t', 9), ('v', 11),
    ('\\', 92), ('\'', 39), ('"', 34), ('?', 63)].map
      fun entry => (CodeUnit.ofChar entry.1, entry.2)

/-- What a backslash and this unit stand for. -/
def decode? (u : CodeUnit) : Option CodeUnit := table.lookup u

end Escape

end GlyphLexer
