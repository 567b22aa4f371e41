/-
# Numbers of a TOML document

Numbers are whole or have a fraction or an exponent, and single underscores may stand between their
digits. How a number is laid out and what it amounts to are two questions: a word that is laid out
badly is refused, while one that is laid out well is a number even if no integer of 128 bits and no
double precision number holds it.
-/

import RecipeGraph.Text.Digit
import RecipeGraph.Text.Pieces
import RecipeGraph.Toml.Value

namespace RecipeGraph.Toml

/-- Splits a sign off a number and tells whether it is a minus. -/
def splitSign : List Char → Bool × List Char
  | '+' :: rest => (false, rest)
  | '-' :: rest => (true, rest)
  | text => (false, text)

/-- The number that digits stand for. -/
def digits? (base : Nat) : (value : Nat) → List Char → Option Nat
  | _, [] => none
  | value, [c] => do
    let digit ← Text.digitValue? base c
    some (value * base + digit)
  | value, c :: next :: rest => do
    let digit ← Text.digitValue? base c
    digits? base (value * base + digit) (next :: rest)

/-- Whether pieces that underscores separate have digits on both sides of every underscore. -/
def areWellSeparated (isDigit : Char → Bool) : (pieces : List (List Char)) → Bool
  | left :: right :: rest =>
    left.getLast?.any isDigit && right.head?.any isDigit && areWellSeparated isDigit (right :: rest)
  | _ => true

/-- Whether the underscores of a word stand between digits. -/
def isWellSeparated (isDigit : Char → Bool) (word : List Char) : Bool :=
  areWellSeparated isDigit (Text.pieces '_' word)

/-- A word without its underscores. -/
def dropUnderscores (word : List Char) : List Char :=
  word.filter (· != '_')

/-- Drops the digits and underscores at the front of a text, if a digit is among them. A zero may
stand in front of further digits only where that is allowed. -/
def dropDigits (allowsZeros : Bool) (text : List Char) : Option (List Char) :=
  let front := text.takeWhile fun c => c.isDigit || c == '_'
  let count := (front.filter Char.isDigit).length
  if count == 0 || !allowsZeros && 1 < count && front.head? == some '0' then none
  else some (text.drop front.length)

/-- Whether a text is an exponent, or nothing. -/
def isExponentOrNothing : List Char → Bool
  | [] => true
  | c :: rest => (c == 'e' || c == 'E') && dropDigits true (splitSign rest).2 == some []

/-- Whether a text without a sign is laid out as a number with a fraction or an exponent. -/
def isLaidOutAsFloat (text : List Char) : Bool :=
  match dropDigits false text with
  | none => false
  | some ('.' :: rest) => (dropDigits true rest).any isExponentOrNothing
  | some rest => isExponentOrNothing rest

/-- The least magnitude that is too great for double precision: halfway between the greatest number
that is held and the next one of its spacing. -/
def floatLimit : Nat := 0x3fffffffffffff <<< 970

/-- How many digits the limit has. -/
def floatLimitWidth : Int := 309

/-- Whether double precision holds the number with given decimal digits behind a power of ten. The
digits are compared with the limit only where both have the same number of places, so no power
that is taken is greater than the text is long. -/
def isHeldFloat (digits : List Char) (exponent : Int) : Bool :=
  let digits := digits.dropWhile (· == '0')
  let places := digits.length + exponent
  digits.isEmpty || places < floatLimitWidth ||
    places == floatLimitWidth &&
      (digits? 10 0 digits).getD 0 * Nat.pow 10 exponent.toNat <
        floatLimit * Nat.pow 10 (-exponent).toNat

/-- The exponent in a text that is an exponent, or nothing. -/
def exponentOf (text : List Char) : Int :=
  let (negative, digits) := splitSign (text.drop 1)
  let magnitude := (digits? 10 0 digits).getD 0
  if negative then -magnitude else magnitude

/-- Whether double precision holds a number with neither sign nor underscores. -/
def holdsFloat (text : List Char) : Bool :=
  let whole := text.takeWhile Char.isDigit
  let rest := text.drop whole.length
  let fraction := match rest with
    | '.' :: more => more.takeWhile Char.isDigit
    | _ => []
  let rest := rest.dropWhile fun c => c == '.' || c.isDigit
  isHeldFloat (whole ++ fraction) (exponentOf rest - fraction.length)

/-- Whether a whole number fits into 128 bits, with a sign or without. -/
def holdsInteger (value : Int) : Bool :=
  decide (-0x80000000000000000000000000000000 ≤ value) &&
    decide (value < 0x100000000000000000000000000000000)

/-- A whole number as a value. -/
def integerValue (value : Int) : Value :=
  if holdsInteger value then .integer value else .unheld

/-- The value of a whole number of decimal digits with a sign, if one is given. -/
def decimalValue (word : List Char) : Value :=
  let (negative, digits) := splitSign word
  match digits? 10 0 digits with
  | some value => integerValue (if negative then -value else value)
  | none => .unheld

def isHexDigit (c : Char) : Bool :=
  (Text.digitValue? 16 c).isSome

/-- The value of a whole number in a base other than ten, given what stands behind its mark. -/
def basedNumber? (base : Nat) (word : List Char) : Option Value :=
  if word.all (fun c => c == '_' || (Text.digitValue? base c).isSome) &&
      isWellSeparated isHexDigit word then
    match digits? base 0 (dropUnderscores word) with
    | some value => some (integerValue value)
    | none => some .unheld
  else none

/-- Whether a text without a sign starts as a whole number does: a zero stands alone. -/
def startsAsInteger : List Char → Bool
  | ['0'] => true
  | c :: _ => c.isDigit && c != '0'
  | [] => false

/-- The value of a number in base ten. Behind its first digits, a point or an exponent anywhere in
the word makes it one with a fraction, and a space makes it none. -/
def decimalNumber? (word : List Char) : Option Value :=
  let text := (splitSign word).2
  let behind := text.dropWhile Char.isDigit
  if behind.contains ' ' then none
  else if behind.any fun c => c == '.' || c == 'e' || c == 'E' then
    if isLaidOutAsFloat text && isWellSeparated Char.isDigit word then
      some (if holdsFloat (dropUnderscores text) then .float else .unheld)
    else none
  else if behind.isEmpty || behind.head? == some '_' then
    if startsAsInteger text && isWellSeparated isHexDigit word then
      some (decimalValue (dropUnderscores word))
    else none
  else none

/-- The value of a word that is laid out as a number. -/
def number? (word : List Char) : Option Value :=
  let text := (splitSign word).2
  if text = "inf".toList ∨ text = "nan".toList then
    some .float
  else
    match word with
    | '0' :: 'x' :: rest => basedNumber? 16 rest
    | '0' :: 'o' :: rest => basedNumber? 8 rest
    | '0' :: 'b' :: rest => basedNumber? 2 rest
    | _ => decimalNumber? word

end RecipeGraph.Toml
