/-
# Quoted texts

The dump of a graph writes property keys and values between double quotes. The quote, the backslash
and the four usual control characters have two-character escapes; every other character that would
not show as itself is written by its code point. What is left stands for itself, so a quoted text
never holds a bare quote or a line break.
-/

import RecipeGraph.Text.Combining
import RecipeGraph.Text.Digit

namespace RecipeGraph.Text

/-- Control, format, separator and private-use characters, the fillers that have no shape, and the
last two code points of every plane: characters with nothing to show. Code points that no standard
has assigned yet are taken to be visible. -/
def invisibleRanges : List CharRange :=
  [⟨0x0, 0x1f⟩, ⟨0x7f, 0xa0⟩, .only 0xad, ⟨0x600, 0x605⟩, .only 0x61c, .only 0x6dd, .only 0x70f,
    ⟨0x890, 0x891⟩, .only 0x8e2, ⟨0x115f, 0x1160⟩, .only 0x1680, .only 0x180e, ⟨0x2000, 0x200f⟩,
    ⟨0x2028, 0x202f⟩, ⟨0x205f, 0x206f⟩, .only 0x3000, .only 0x3164, ⟨0xe000, 0xf8ff⟩,
    ⟨0xfdd0, 0xfdef⟩, .only 0xfeff, .only 0xffa0, ⟨0xfff0, 0xfffb⟩, ⟨0xfffe, 0xffff⟩,
    .only 0x110bd, .only 0x110cd, ⟨0x13430, 0x1343f⟩, ⟨0x1bca0, 0x1bca3⟩, ⟨0x1d173, 0x1d17a⟩,
    ⟨0x1fffe, 0x1ffff⟩, ⟨0x2fffe, 0x2ffff⟩, ⟨0x3fffe, 0x3ffff⟩, ⟨0x4fffe, 0x4ffff⟩,
    ⟨0x5fffe, 0x5ffff⟩, ⟨0x6fffe, 0x6ffff⟩, ⟨0x7fffe, 0x7ffff⟩, ⟨0x8fffe, 0x8ffff⟩,
    ⟨0x9fffe, 0x9ffff⟩, ⟨0xafffe, 0xaffff⟩, ⟨0xbfffe, 0xbffff⟩, ⟨0xcfffe, 0xcffff⟩,
    ⟨0xdfffe, 0xdffff⟩, ⟨0xe0000, 0xe0fff⟩, ⟨0xefffe, 0x10ffff⟩]

/-- Whether a character shows as itself between quotes. -/
def isVisible (c : Char) : Bool :=
  ' ' ≤ c && c ≤ '~' || !CharRange.anyContains invisibleRanges c && !isCombining c

/-- How many hexadecimal digits a number needs, given a bound on them. -/
def hexWidth : (bound value : Nat) → Nat
  | 0, _ => 1
  | bound + 1, value => if value < 16 then 1 else hexWidth bound (value / 16) + 1

/-- A character by its code point, in as few lower-case hexadecimal digits as possible. -/
def codePointEscape (c : Char) : List Char :=
  '\\' :: 'u' :: '\x7b' :: hexDigits (hexWidth 6 c.toNat) c.toNat ++ ['\x7d']

/-- What stands for a character between double quotes. -/
def escape (c : Char) : List Char :=
  match c with
  | '"' => ['\\', '"']
  | '\\' => ['\\', '\\']
  | '\n' => ['\\', 'n']
  | '\r' => ['\\', 'r']
  | '\t' => ['\\', 't']
  | '\x00' => ['\\', '0']
  | c => if isVisible c then [c] else codePointEscape c

/-- A text between double quotes, with every character escaped that needs it. -/
def quote (text : String) : String :=
  String.ofList ('"' :: text.toList.flatMap escape ++ ['"'])

end RecipeGraph.Text
