/-
# Identifiers of graph elements

Every node, edge and level of a graph carries an identifier. An identifier is either a given
128-bit UUID or one minted while compiling. Minted identifiers are numbered, so a supply that only
counts upwards never hands out the same one twice; their texts carry no meaning and all print as
`<fresh>`. A given identifier is written in the hyphenated form and may be read in four forms.
-/

import RecipeGraph.Text.Digit

namespace RecipeGraph

/-- The identity of a node, an edge or a level. -/
inductive Id where
  /-- A UUID chosen by whoever builds the graph. -/
  | given (bits : BitVec 128)
  /-- The identifier that the supply handed out under this number. -/
  | minted (serial : Nat)
deriving DecidableEq, Repr

namespace Id

instance : Inhabited Id := ⟨.minted 0⟩

/-- The UUID that has a number as its value. -/
def ofNat (value : Nat) : Id :=
  .given (BitVec.ofNat 128 value)

/-- The lengths of the five groups that hyphens separate. -/
def groupLengths : List Nat := [8, 4, 4, 4, 12]

/-- Cuts a text into groups of the given lengths and writes a hyphen between neighbours. -/
def hyphenate : List Nat → List Char → List Char
  | [], digits => digits
  | [_], digits => digits
  | length :: next :: lengths, digits =>
    digits.take length ++ '-' :: hyphenate (next :: lengths) (digits.drop length)

/-- The text of an identifier. -/
def render : Id → String
  | .given bits => String.ofList (hyphenate groupLengths (Text.hexDigits 32 bits.toNat))
  | .minted _ => "<fresh>"

instance : ToString Id := ⟨render⟩

/-- Reads exactly `count` hexadecimal digits onto the value read so far. -/
def readDigits : (count value : Nat) → List Char → Option (Nat × List Char)
  | 0, value, rest => some (value, rest)
  | _ + 1, _, [] => none
  | count + 1, value, c :: rest => do
    let digit ← Text.digitValue? 16 c
    readDigits count (value * 16 + digit) rest

/-- Reads groups of digits of the given lengths with a hyphen between neighbours. -/
def readGroups : List Nat → (value : Nat) → List Char → Option (Nat × List Char)
  | [], value, rest => some (value, rest)
  | [length], value, rest => readDigits length value rest
  | length :: next :: lengths, value, rest =>
    match readDigits length value rest with
    | some (value, '-' :: rest) => readGroups (next :: lengths) value rest
    | _ => none

/-- The identifier of a reading that used up its whole text. -/
def ofReading : Option (Nat × List Char) → Option Id
  | some (value, []) => some (ofNat value)
  | _ => none

/-- Reads a text that is nothing but the hyphenated form. -/
def parseHyphenated (text : List Char) : Option Id :=
  ofReading (readGroups groupLengths 0 text)

/-- Reads the hyphenated form inside one pair of curly brackets. -/
def parseBraced (text : List Char) : Option Id :=
  match text.getLast? with
  | some '\x7d' => parseHyphenated text.dropLast
  | _ => none

/-- What stands behind `urn:uuid:`, whose letters may be of either case. -/
def dropNamespace (text : List Char) : Option (List Char) :=
  let space := "urn:uuid:".toList
  if (text.take space.length).map Char.toLower = space then some (text.drop space.length)
  else none

/-- Reads a UUID in any of its forms: 32 digits, hyphenated, hyphenated in curly brackets, or
hyphenated after `urn:uuid:`. Digits may be of either case. -/
def parse (text : String) : Option Id :=
  match text.toList with
  | '\x7b' :: rest => parseBraced rest
  | digits =>
    match dropNamespace digits with
    | some rest => parseHyphenated rest
    | none =>
      match ofReading (readDigits 32 0 digits) with
      | some id => some id
      | none => parseHyphenated digits

end Id

/-- Hands out minted identifiers in the order of their numbers. -/
structure IdSupply where
  next : Nat
deriving DecidableEq, Repr, Inhabited

namespace IdSupply

/-- The supply that has handed out nothing yet. -/
def start : IdSupply := ⟨0⟩

/-- Takes the next identifier. -/
def take (supply : IdSupply) : Id × IdSupply :=
  (.minted supply.next, ⟨supply.next + 1⟩)

/-- An identifier that a supply may still hand out. Given identifiers are never among them. -/
def Pending (supply : IdSupply) : Id → Prop
  | .given _ => False
  | .minted serial => supply.next ≤ serial

theorem pending_take (supply : IdSupply) : supply.Pending supply.take.1 :=
  Nat.le_refl supply.next

/-- What is pending after a take was pending before it and is not the identifier taken. -/
theorem pending_after_take (supply : IdSupply) (id : Id) (h : supply.take.2.Pending id) :
    supply.Pending id ∧ id ≠ supply.take.1 := by
  cases id with
  | given bits => exact absurd h id
  | minted serial =>
      have later : supply.next + 1 ≤ serial := h
      refine ⟨Nat.le_of_succ_le later, fun same => ?_⟩
      have : serial = supply.next := Id.minted.inj same
      omega

end IdSupply

end RecipeGraph
