import GlyphLexer.Text.Digits
import GlyphLexer.Yaml.Line

/-!
# The text of YAML scalars

Plain and quoted scalars, from their first unit to their last.

A scalar may go on over several lines. Its lines are then folded into one:
white space at the inner ends of lines is dropped, a single line break turns
into a space, and of several line breaks in a row all but the first remain.
Every line after the first has to be indented by at least `minIndent` spaces
unless it is empty, and must not begin with a mark of a document.

A plain scalar ends at a comment, at a colon with white space behind it, and
within brackets also at brackets and commas. White space and line breaks
belong to it if it goes on behind them. A single-quoted scalar writes its
quotation mark twice; a double-quoted one has escapes, among them the escaped
line break, which joins two lines without a space.

## Main definitions

* `Yaml.Folded`: The text of a scalar, the text behind it, and whether it
  went over lines.
* `Yaml.fold`: The lines of a scalar folded into one.
* `Yaml.plainTaken`, `Yaml.quotedBody`: What a scalar takes of the text.
* `Yaml.plain?`, `Yaml.singleQuoted?`, `Yaml.doubleQuoted?`: The three kinds
  of scalar.
-/

namespace GlyphLexer

namespace Yaml

/-- The text of a scalar, what follows it, and whether it went over more than
    one line. -/
structure Folded where
  value : Text
  rest : Text
  multiline : Bool
  deriving Repr

/-- A scalar that takes the given text and has the given value. -/
def Folded.ofTaken (taken value rest : Text) : Folded :=
  ⟨value, rest, taken.contains CodeUnit.newline⟩

/-- Drops spaces and tabs at the end. -/
def trimEnd (t : Text) : Text := (t.reverse.dropWhile Line.isSpacing).reverse

/-- What stands between two lines of a scalar that have so many empty lines
    between them. -/
def separator (emptyLines : Nat) : Text :=
  if emptyLines = 0 then [CodeUnit.space] else List.replicate emptyLines CodeUnit.newline

/-- Folds the lines after the first, the last of which keeps the white space
    at its end. -/
def foldRest (emptyLines : Nat) : List Text → Text
  | [] => []
  | [last] => separator emptyLines ++ Line.skipSpacing last
  | line :: rest =>
    let inner := trimEnd (Line.skipSpacing line)
    if inner.isEmpty then foldRest (emptyLines + 1) rest
    else separator emptyLines ++ inner ++ foldRest 0 rest

/-- Folds the lines of a scalar into one. -/
def fold (t : Text) : Text :=
  match (Line.normalize t).lines with
  | [] => []
  | [only] => only
  | first :: rest => trimEnd first ++ foldRest 0 rest

/-- The line that `t` begins with may go on a scalar: it has nothing but
    spaces, or it is indented far enough and begins with no mark. -/
def continues (minIndent : Nat) (t : Text) : Bool :=
  if minIndent = 0 then !Line.isMark t
  else
    decide (minIndent ≤ Line.indentOf t) || (Line.behindBreak? (t.drop (Line.indentOf t))).isSome

/-! ### Plain scalars -/

/-- A bracket or comma, which has a meaning of its own within brackets. -/
def isFlowIndicator (u : CodeUnit) : Bool :=
  u ∈ [CodeUnit.ofChar ',', CodeUnit.ofChar '[', CodeUnit.ofChar ']', CodeUnit.leftBrace,
    CodeUnit.rightBrace]

/-- Begins with white space, with nothing, or, within brackets, with a
    bracket or comma. -/
def beginsEnd (inFlow : Bool) (t : Text) : Bool :=
  Line.beginsGap t || (inFlow && (t.head?.map isFlowIndicator).getD false)

/-- Begins with a colon that ends a key. -/
def beginsColon (inFlow : Bool) : Text → Bool
  | [] => false
  | u :: rest => u == Line.colon && beginsEnd inFlow rest

/-- The units that a plain scalar takes. `gap` is the white space read since
    the last unit that is not white space, and belongs to the scalar only if
    it goes on behind it. A comment begins behind white space, a carriage
    return that ends no line among it. -/
def plainTaken (inFlow : Bool) (minIndent : Nat) (gap : Text) : Text → Text
  | [] => []
  | u :: rest =>
    let stops := rest.head? = some Line.commentSign ||
      (inFlow && (rest.head?.map isFlowIndicator).getD false)
    if u = Line.colon then
      if beginsEnd inFlow rest then [] else gap ++ u :: plainTaken inFlow minIndent [] rest
    else if u = CodeUnit.carriageReturn && (Line.behindBreak? (u :: rest)).isNone then
      gap ++ u :: if stops then [] else plainTaken inFlow minIndent [] rest
    else if Line.isGap u then
      if stops || (u = CodeUnit.newline && !continues minIndent rest) then []
      else plainTaken inFlow minIndent (gap ++ [u]) rest
    else if inFlow && isFlowIndicator u then []
    else gap ++ u :: plainTaken inFlow minIndent [] rest

/-- The units that no plain scalar begins with. -/
def isReserved (u : CodeUnit) : Bool :=
  u ∈ (text ",[]#&*!|>'\"%@" ++ [CodeUnit.leftBrace, CodeUnit.rightBrace, 96])

/-- Reads a plain scalar from its first unit on. -/
def plain? (inFlow : Bool) (minIndent : Nat) (t : Text) : Option Folded :=
  match t with
  | [] => none
  | u :: rest =>
    if isReserved u then none
    else if (u = Line.hyphen ∨ u = CodeUnit.ofChar '?') ∧ beginsEnd inFlow rest then none
    else
      let taken := plainTaken inFlow minIndent [] t
      if taken.isEmpty then none
      else some (.ofTaken taken (fold taken) (t.drop taken.length))

/-! ### Quoted scalars -/

/-- What comes before the first line break behind which no scalar goes on. -/
def upToDedent (minIndent : Nat) : Text → Text
  | [] => []
  | u :: rest =>
    match Line.behindBreak? (u :: rest) with
    | some next => if continues minIndent next then u :: upToDedent minIndent rest else []
    | none => u :: upToDedent minIndent rest

/-- The inside of a quoted scalar, and what follows it, where `t` is the text
    behind the opening mark and `closed` its part up to the closing mark. The
    scalar ends there, or before a line that is not indented far enough, or
    with the whole text if there is no closing mark. However it ends, its
    last unit has to be the mark. -/
def quotedBody (mark : CodeUnit) (minIndent : Nat) (closed : Option Text) (t : Text) :
    Option (Text × Text) :=
  let taken := match closed with
    | some taken => upToDedent minIndent taken
    | none => t
  if taken.getLast? = some mark then some (taken.dropLast, t.drop taken.length) else none

/-- The text behind the opening mark of a single-quoted scalar up to its
    closing mark. -/
def singleClosed : Text → Option Text
  | [] => none
  | u :: rest =>
    if u = 39 then
      match rest with
      | v :: behind => if v = 39 then (singleClosed behind).map fun t => u :: v :: t else some [u]
      | [] => some [u]
    else (singleClosed rest).map (u :: ·)

/-- Writes each two marks in a row once. -/
def undoubled : Text → Text
  | [] => []
  | u :: rest =>
    if u = 39 then
      match rest with
      | v :: behind => if v = 39 then u :: undoubled behind else u :: undoubled (v :: behind)
      | [] => [u]
    else u :: undoubled rest

/-- Reads a single-quoted scalar from behind its opening mark. -/
def singleQuoted? (minIndent : Nat) (t : Text) : Option Folded :=
  (quotedBody 39 minIndent (singleClosed t) t).map fun (body, rest) =>
    .ofTaken body (undoubled (fold body)) rest

/-- The text behind the opening mark of a double-quoted scalar up to its
    closing mark. -/
def doubleClosed : Text → Option Text
  | [] => none
  | u :: rest =>
    if u = CodeUnit.quote then some [u]
    else if u = CodeUnit.backslash then
      match rest with
      | [] => none
      | v :: behind => (doubleClosed behind).map fun t => u :: v :: t
    else (doubleClosed rest).map (u :: ·)

/-- The escapes of one unit in double-quoted scalars. -/
def escapes : List (CodeUnit × CodeUnit) :=
  [('0', 0), ('a', 7), ('b', 8), ('e', 27), ('f', 12), ('n', 10), ('r', 13), ('t', 9), ('v', 11),
    ('N', 0x85), ('_', 0xA0), ('L', 0x2028), ('P', 0x2029), (' ', 32), ('"', 34), ('/', 47),
    ('\\', 92), ('\t', 9)].map fun entry => (CodeUnit.ofChar entry.1, entry.2)

/-- The escapes that name a code point, each with the number of its
    hexadecimal digits. -/
def numericEscapes : List (CodeUnit × Nat) :=
  [(CodeUnit.ofChar 'x', 2), (CodeUnit.ofChar 'u', 4), (CodeUnit.ofChar 'U', 8)]

/-- The code point that a text begins to name with so many hexadecimal
    digits. -/
def codePoint? (count : Nat) (t : Text) : Option Nat := do
  let n ← Text.natural? 16 (t.take count)
  if count ≤ t.length ∧ n ≤ 0x10FFFF then some n else none

/-- The text that the inside of a double-quoted scalar stands for. A
    backslash at its end stands before the closing mark, and names it. -/
def unescape : Nat → Text → Option Text
  | 0, _ => some []
  | _ + 1, [] => some []
  | fuel + 1, u :: rest =>
    if u = CodeUnit.newline then
      let gap := rest.takeWhile fun v => Line.isSpacing v || v == CodeUnit.newline
      (unescape fuel (rest.drop gap.length)).map (separator (gap.count CodeUnit.newline) ++ ·)
    else if u = CodeUnit.backslash then
      match rest with
      | [] => some [CodeUnit.quote]
      | v :: behind =>
        match escapes.lookup v, numericEscapes.lookup v with
        | some decoded, _ => (unescape fuel behind).map (decoded :: ·)
        | none, some count => do
          let n ← codePoint? count behind
          (unescape fuel (behind.drop count)).map (Text.ofCodePoint n ++ ·)
        | none, none =>
          if v = CodeUnit.newline then unescape fuel (Line.skipSpacing behind) else none
    else if Line.isSpacing u then
      let gap := rest.takeWhile Line.isSpacing
      let behind := rest.drop gap.length
      if behind.head? = some CodeUnit.newline then unescape fuel behind
      else (unescape fuel behind).map (u :: gap ++ ·)
    else (unescape fuel rest).map (u :: ·)

/-- Reads a double-quoted scalar from behind its opening mark. -/
def doubleQuoted? (minIndent : Nat) (t : Text) : Option Folded := do
  let (body, rest) ← quotedBody CodeUnit.quote minIndent (doubleClosed t) t
  let value ← unescape (body.length + 1) (Line.normalize body)
  return .ofTaken body value rest

end Yaml

end GlyphLexer
