/-
# Words of a TOML document

The small parts of a document: blanks and comments, strings, keys, and the words that numbers and
the like are. Every reader takes its part off the front of a text and gives back the rest; a text
that does not start with such a part, or breaks the rules within it, is refused.
-/

import RecipeGraph.Text.Digit
import RecipeGraph.Toml.Value

namespace RecipeGraph.Toml

/-- Takes something off the front of a text. -/
abbrev Read : Type → Type := StateT (List Char) Option

namespace Read

/-- The first character of what is left, if there is any. -/
def peek : Read (Option Char) := do
  return (← get).head?

/-- Takes one character with a property. -/
def one (accept : Char → Bool) : Read Char := do
  match ← get with
  | c :: rest =>
    if accept c then
      set rest
      return c
    else failure
  | [] => failure

/-- Takes one given character. -/
def exactly (expected : Char) : Read Unit := do
  let _ ← one (· == expected)

/-- Takes the longest run of characters with a property. -/
def run (keep : Char → Bool) : Read (List Char) := do
  let text ← get
  set (text.dropWhile keep)
  return text.takeWhile keep

/-- Takes a given text. -/
def word : List Char → Read Unit
  | [] => return ()
  | c :: rest => do
    exactly c
    word rest

/-- Replaces what is left by a function that may refuse it. -/
def skip (move : List Char → Option (List Char)) : Read Unit := do
  match move (← get) with
  | some rest => set rest
  | none => failure

/-- Runs with as many steps as there are characters left, and one more. -/
def bounded {α : Type} (item : Nat → Read α) : Read α := do
  item ((← get).length + 1)

end Read

open Read

/-- Blanks within a line. -/
def isBlank (c : Char) : Bool :=
  c == ' ' || c == '\t'

/-- Control characters, which stand neither in comments nor in strings. -/
def isForbidden (c : Char) : Bool :=
  c < ' ' && c != '\t' || c == '\x7f'

def blanks : Read Unit := do
  let _ ← run isBlank

mutual

/-- Skips blanks, line breaks and comments. -/
def skipTrivia : List Char → Option (List Char)
  | [] => some []
  | '#' :: rest => skipComment rest
  | '\r' :: '\n' :: rest => skipTrivia rest
  | c :: rest => if isBlank c || c == '\n' then skipTrivia rest else some (c :: rest)
termination_by structural text => text

/-- Skips a comment and what may follow it. -/
def skipComment : List Char → Option (List Char)
  | [] => some []
  | '\n' :: rest => skipTrivia rest
  | '\r' :: '\n' :: rest => skipTrivia rest
  | c :: rest => if isForbidden c then none else skipComment rest
termination_by structural text => text

end

def trivia : Read Unit := skip skipTrivia

/-- Takes a line break. -/
def lineBreak : Read Unit :=
  word ['\n'] <|> word ['\r', '\n']

/-- Takes blanks, a comment and the line break behind them, or the end of the text. -/
def lineEnd : Read Unit := do
  blanks
  if (← peek) == some '#' then
    let comment ← run fun c => c != '\n' && c != '\r'
    if comment.any isForbidden then
      failure
  if (← peek).isSome then
    lineBreak

/-- Takes a fixed number of hexadecimal digits onto the value so far. -/
def hexCode : (count value : Nat) → Read Nat
  | 0, value => return value
  | count + 1, value => do
    let c ← one fun c => (Text.digitValue? 16 c).isSome
    hexCode count (value * 16 + (Text.digitValue? 16 c).getD 0)

/-- The character of a code point, which no half of a surrogate pair is. -/
def charOf (point : Nat) : Read Char :=
  if point < 0xd800 || 0xdfff < point && point ≤ 0x10ffff then return Char.ofNat point
  else failure

/-- Takes what follows a backslash in a string. -/
def escapeRest : Read Char := do
  match ← one fun _ => true with
  | 'b' => return '\x08'
  | 't' => return '\t'
  | 'n' => return '\n'
  | 'f' => return '\x0c'
  | 'r' => return '\r'
  | 'e' => return '\x1b'
  | '"' => return '"'
  | '\\' => return '\\'
  | 'x' => charOf (← hexCode 2 0)
  | 'u' => charOf (← hexCode 4 0)
  | 'U' => charOf (← hexCode 8 0)
  | _ => failure

/-- Takes a string of one line up to its closing double quote. -/
def basicRest : (bound : Nat) → Read (List Char)
  | 0 => failure
  | bound + 1 => do
    match ← one fun c => !isForbidden c with
    | '"' => return []
    | '\\' =>
      let c ← escapeRest
      return c :: (← basicRest bound)
    | c => return c :: (← basicRest bound)

/-- Takes a string without escapes up to its closing single quote. -/
def literalRest : Read (List Char) := do
  let content ← run fun c => c != '\'' && !isForbidden c
  exactly '\''
  return content

/-- Whether a text goes on with blanks and then a line break. -/
def breaksLine (text : List Char) : Bool :=
  match text.dropWhile isBlank with
  | '\n' :: _ => true
  | '\r' :: '\n' :: _ => true
  | _ => false

/-- Drops blanks and line breaks. -/
def dropLines : List Char → List Char
  | '\r' :: '\n' :: rest => dropLines rest
  | c :: rest => if isBlank c || c == '\n' then dropLines rest else c :: rest
  | [] => []

/-- Takes a string of several lines up to its three closing quotes, before which one or two quotes
may stand. A backslash at the end of a line joins the lines. -/
def longRest (mark : Char) (escapes : Bool) : (bound : Nat) → Read (List Char)
  | 0 => failure
  | bound + 1 => do
    match ← get with
    | a :: b :: c :: rest =>
      if a == mark && b == mark && c == mark then
        let extra := (rest.takeWhile (· == mark)).take 2
        set (rest.drop extra.length)
        return extra
    | _ => pure ()
    match ← one fun _ => true with
    | '\\' =>
      if escapes then
        if breaksLine (← get) then
          modify dropLines
          longRest mark escapes bound
        else
          let c ← escapeRest
          return c :: (← longRest mark escapes bound)
      else
        return '\\' :: (← longRest mark escapes bound)
    | '\r' =>
      exactly '\n'
      return '\r' :: '\n' :: (← longRest mark escapes bound)
    | c =>
      if isForbidden c && c != '\n' then failure
      return c :: (← longRest mark escapes bound)

/-- Takes a string of one line. -/
def shortString : Read String := do
  match ← one fun c => c == '"' || c == '\'' with
  | '"' => return String.ofList (← bounded basicRest)
  | _ => return String.ofList (← literalRest)

/-- Takes a string of several lines; a line break right behind its opening does not count. -/
def longString (mark : Char) : Read String := do
  word [mark, mark, mark]
  let _ ← optional lineBreak
  return String.ofList (← bounded (longRest mark (mark == '"')))

/-- Takes a string of any kind. -/
def string : Read String :=
  longString '"' <|> longString '\'' <|> shortString

/-- Characters of a key without quotes. -/
def isBareKeyPart (c : Char) : Bool :=
  c.isAlphanum || c == '-' || c == '_'

/-- Takes one part of a key. -/
def simpleKey : Read String := do
  match ← run isBareKeyPart with
  | [] => shortString
  | name => return String.ofList name

/-- Takes further parts of a dotted key, fewer than there is room for. -/
def keyRest : (room : Nat) → Read (List String)
  | 0 => failure
  | room + 1 => do
    blanks
    match ← optional (exactly '.') with
    | none => return []
    | some _ =>
      blanks
      let part ← simpleKey
      return part :: (← keyRest room)

/-- How many parts a key may have, and how deep values may nest. -/
def maxNesting : Nat := 80

/-- Takes a key and the blanks behind it. -/
def key : Read (List String) := do
  let first ← simpleKey
  return first :: (← keyRest maxNesting)

/-- Characters of a word, other than the blanks within it. All that is not a string and has no parts
is written as a word. -/
def isWordPart (c : Char) : Bool :=
  !" \t\r\n=,[]\x7b\x7d#".toList.contains c

/-- Whether a word goes on behind blanks: with anything it may hold, but not with a string. -/
def wordGoesOn (text : List Char) : Bool :=
  match text.dropWhile isBlank with
  | [] => false
  | c :: _ => isWordPart c && c != '"' && c != '\''

/-- Takes a word as long as it goes on. Blanks behind it do not belong to it. -/
def wordWithin : (bound : Nat) → Read (List Char)
  | 0 => failure
  | bound + 1 => do
    let front ← run isWordPart
    if wordGoesOn (← get) then
      let gap ← run isBlank
      return front ++ gap ++ (← wordWithin bound)
    else
      return front

/-- Takes the longest word, which may be empty. -/
def wholeWord : Read (List Char) :=
  bounded wordWithin

end RecipeGraph.Toml
