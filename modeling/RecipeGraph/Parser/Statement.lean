/-
# Reading statements

Statements nest in namespaces, and a statement that is not understood never ends the reading: it is
reported and skipped. What is skipped runs to the end of the line or to the next semicolon, inside
a namespace at most to the closing bracket. A statement is also not understood when something else
follows it on its line.

The kinds of statement are tried one after the other at the same place. A namespace that is read on
the way reports what it finds inside at once, and these reports stay even if the statement around it
turns out not to be one, and its text is then read again.
-/

import RecipeGraph.Parser.Call

namespace RecipeGraph.Parser

/-- The report on a string that is not closed on its line. -/
def unterminatedString (opened : Nat) (stop : Cursor) : Diagnostic :=
  (Diagnostic.pointing .error .unterminatedString "unterminated string literal"
    (.between opened stop.offset) ErrorCode.unterminatedString.description).withHelp
      "close the string on the same line"

/-- The report on a stretch of text that is no statement. -/
def unexpectedToken (skipped : Span) : Diagnostic :=
  (Diagnostic.pointing .error .unexpectedToken "unexpected token" skipped
    "expected a statement").withHelp
      "statements are calls, assignments, namespaces, imports, or style declarations"

/-- Characters that a broken statement is skipped over, inside a namespace or not. -/
def isSkipped (nested : Bool) (c : Char) : Bool :=
  c != '\n' && c != ';' && !(nested && c == ']')

/-- Skips to the end of a statement that is broken off. -/
def skipRemainder (nested : Bool) (cursor : Cursor) : Cursor :=
  (cursor.takeWhile (isSkipped nested)).2

/-- Skips a statement that is not understood: one character at least, and on to its end. -/
def skipStatement (nested : Bool) : Cursor → Cursor
  | ⟨[], offset⟩ => ⟨[], offset⟩
  | ⟨c :: rest, offset⟩ =>
    let remainder := skipRemainder nested ⟨c :: rest, offset⟩
    if remainder.offset = offset then ⟨rest, offset + c.utf8Size⟩ else remainder

/-- Whether a place is the end of a statement. -/
def endsStatement (cursor : Cursor) : Bool :=
  match cursor.rest with
  | [] => true
  | c :: _ => c == '\n' || c == ';' || c == ']'

/-- Reads the blanks behind a statement, behind which the statement has to end. -/
def statementEnd : Scanner Unit := fun cursor =>
  let stop := cursor.skipGap isInlineBlank
  if endsStatement stop then .done () stop else .refused

/-- Reads statements until the text ends, or the namespace around them, and takes at most `bound`
turns. A turn reads a statement or skips one. -/
def statementTurns (statement : Reader Statement) (nested : Bool) :
    (bound : Nat) → Reader (List (Spanned Statement))
  | 0 => Reader.refuse
  | bound + 1 => fun cursor =>
    let start := cursor.skipGap isSeparator
    if start.atEnd || nested && start.rest.head? == some ']' then
      ⟨[], .done [] start⟩
    else
      let attempt : Reader (Spanned Statement) := do
        let item ← Reader.located statement
        Reader.ofScanner statementEnd
        return item
      match attempt start with
      | ⟨found, .done item stop⟩ =>
        let reply := statementTurns statement nested bound stop
        ⟨found ++ reply.findings,
          match reply.outcome with
          | .done items stop => .done (item :: items) stop
          | other => other⟩
      | ⟨found, .halted opened stop⟩ =>
        let reply := statementTurns statement nested bound (skipRemainder nested stop)
        ⟨found ++ unterminatedString opened stop :: reply.findings, reply.outcome⟩
      | ⟨found, .refused⟩ =>
        let stop := skipStatement nested start
        let reply := statementTurns statement nested bound stop
        ⟨found ++ unexpectedToken (start.spanTo stop) :: reply.findings, reply.outcome⟩

/-- Reads statements until the text ends, or the namespace around them. Every turn but the last
moves on by at least one character, so the turns are never used up. -/
def statementList (statement : Reader Statement) (nested : Bool) :
    Reader (List (Spanned Statement)) := fun cursor =>
  statementTurns statement nested (cursor.rest.length + 1) cursor

/-- Reads arguments that follow something on the same line, or none. -/
def trailingArguments : Scanner (List Argument) := do
  let arguments ← Scanner.optional do
    inlineGap
    argumentList argument
  return arguments.getD []

/-- Reads a namespace, given how its statements are read. -/
def namespaceWith (statement : Reader Statement) : Reader (Spanned Namespace) := Reader.located do
  let name ← Reader.ofScanner (leadingName (Cursor.skipGap isInlineBlank))
  Reader.ofScanner (Scanner.exactly '[')
  let statements ← statementList statement true
  Reader.ofScanner (Scanner.closing ']')
  let arguments ← Reader.ofScanner trailingArguments
  let style ← Reader.ofScanner trailingStyle
  return ⟨name, statements, arguments, style⟩

/-- Reads an import. A location that is missing is an empty one, at the place where it should
stand. -/
def importClause : Scanner (Spanned Import) := Scanner.located do
  let name ← leadingName (Cursor.skipGap isInlineBlank)
  Scanner.exactly '@'
  inlineGap
  let location ← Scanner.located (Scanner.optional quoted)
  return ⟨location.value.getD ⟨"", location.span⟩, name⟩

/-- Reads a variable on the left of an assignment. -/
def target : Scanner Target := do
  let name ← identifier
  let style ← trailingStyle
  return ⟨name, style⟩

/-- Reads the variables on the left of an assignment. -/
def targets : Scanner (List Target) :=
  Scanner.separated target do
    inlineGap
    Scanner.exactly ','
    inlineGap

/-- Reads what stands on the right of an assignment. -/
def producerWith (statement : Reader Statement) : Reader Producer :=
  Reader.orTry (Reader.ofScanner (ProducerOf.fetched <$> importClause)) <|
    Reader.orTry (ProducerOf.level <$> namespaceWith statement) <|
      Reader.ofScanner (ProducerOf.call <$> call)

/-- Reads the right-hand side of an alias, which only a single variable may have. -/
def aliasOf : List Target → Scanner Statement
  | [left] => Statement.alias left <$> qualifiedName
  | _ => Scanner.refuse

/-- Reads an assignment, or an alias where the right-hand side produces nothing. -/
def assignmentWith (statement : Reader Statement) : Reader Statement := do
  let left ← Reader.ofScanner targets
  Reader.ofScanner do
    inlineGap
    Scanner.exactly '='
    inlineGap
  match ← Reader.optional (producerWith statement) with
  | some producer => return .assignment left producer
  | none => Reader.ofScanner (aliasOf left)

/-- Reads a declaration of a named style. -/
def namedStyle : Scanner Statement := do
  Scanner.exactly '#'
  let name ← identifier
  inlineGap
  let style ← styleBlock
  return .namedStyle name style

/-- Reads a binding of styles to a keyword. -/
def styleBinding : Scanner Statement := do
  Scanner.exactly '%'
  let keyword ← identifier
  inlineGap
  Scanner.exactly '\x7b'
  let tags ← separatedItems tagReference
  Scanner.closing '\x7d'
  return .styleBinding keyword tags

/-- Reads one statement of any kind, given how the statements inside a namespace are read. -/
def statementWith (inner : Reader Statement) : Reader Statement :=
  Reader.orTry (Reader.ofScanner namedStyle) <|
    Reader.orTry (Reader.ofScanner styleBinding) <|
    Reader.orTry (Reader.ofScanner ((fun source => .fetched source.value) <$> importClause)) <|
    Reader.orTry (assignmentWith inner) <|
    Reader.orTry ((fun level => Statement.level level.value) <$> namespaceWith inner) <|
    Reader.orTry (Reader.ofScanner ((fun made => .call made.value) <$> call)) <|
      Reader.ofScanner (Statement.reference <$> qualifiedName)

/-- Reads a statement in which namespaces nest to less than the given depth. -/
def statementWithin : (depth : Nat) → Cursor → Reply Statement
  | 0, _ => ⟨[], .refused⟩
  | depth + 1, cursor => statementWith (fun inner => statementWithin depth inner) cursor

/-- Reads the statements of a whole text. Going one namespace deeper reads at least its opening
bracket, so the length of the text bounds the depth. -/
def recipeStatements : Reader (List (Spanned Statement)) := fun cursor =>
  statementList (fun inner => statementWithin cursor.rest.length inner) false cursor

end RecipeGraph.Parser
