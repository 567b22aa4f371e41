/-
# Places in a text that is being read

A cursor is what is left of a text together with the number of bytes read before it. Cursors only
move forward, by taking characters off the front of what is left; `Reaches` says that one cursor
comes from another by taking exactly a given stretch, and is the fact that every scanner preserves.
-/

import RecipeGraph.Span

namespace RecipeGraph.Parser

/-- The number of bytes of a text in UTF-8. -/
def byteLength : List Char → Nat
  | [] => 0
  | c :: rest => c.utf8Size + byteLength rest

@[simp] theorem byteLength_nil : byteLength [] = 0 := rfl

@[simp] theorem byteLength_cons (c : Char) (text : List Char) :
    byteLength (c :: text) = c.utf8Size + byteLength text := rfl

@[simp] theorem byteLength_append (first second : List Char) :
    byteLength (first ++ second) = byteLength first + byteLength second := by
  induction first with
  | nil => simp
  | cons c rest step => simp [step, Nat.add_assoc]

private theorem byteLength_eq_utf8ByteSize_ofList (text : List Char) :
    byteLength text = (String.ofList text).utf8ByteSize := by
  induction text with
  | nil => simp [String.ofList_nil]
  | cons c rest step =>
      have split : String.ofList (c :: rest) = String.singleton c ++ String.ofList rest := by
        rw [String.singleton_eq_ofList, ← String.ofList_append, List.singleton_append]
      rw [byteLength_cons, step, split, String.utf8ByteSize_append, String.utf8ByteSize_singleton]

/-- Offsets counted while reading and the size of the whole text are in the same unit. -/
theorem byteLength_toList (text : String) : byteLength text.toList = text.utf8ByteSize := by
  rw [byteLength_eq_utf8ByteSize_ofList, String.ofList_toList]

/-- A place in a text: what is left to read, and how many bytes come before it. -/
structure Cursor where
  rest : List Char
  offset : Nat
deriving DecidableEq, Repr, Inhabited

namespace Cursor

/-- The beginning of a text. -/
def ofText (text : String) : Cursor :=
  ⟨text.toList, 0⟩

/-- Whether nothing is left. -/
def atEnd (cursor : Cursor) : Bool :=
  cursor.rest.isEmpty

/-- The stretch of text between two places. -/
def spanTo (start stop : Cursor) : Span :=
  .between start.offset stop.offset

/-- Takes the longest run of characters with a property. -/
def takeWhile (keep : Char → Bool) (cursor : Cursor) : List Char × Cursor :=
  let taken := cursor.rest.takeWhile keep
  (taken, ⟨cursor.rest.dropWhile keep, cursor.offset + byteLength taken⟩)

/-- The second place lies behind the first by exactly the given stretch. -/
def Reaches (start : Cursor) (taken : List Char) (stop : Cursor) : Prop :=
  start.rest = taken ++ stop.rest ∧ stop.offset = start.offset + byteLength taken

theorem Reaches.refl (cursor : Cursor) : cursor.Reaches [] cursor :=
  ⟨rfl, by simp⟩

theorem Reaches.trans {start middle stop : Cursor} {first second : List Char}
    (one : start.Reaches first middle) (two : middle.Reaches second stop) :
    start.Reaches (first ++ second) stop :=
  ⟨by rw [one.1, two.1, List.append_assoc], by rw [two.2, one.2, byteLength_append, Nat.add_assoc]⟩

theorem takeWhile_reaches (keep : Char → Bool) (cursor : Cursor) :
    cursor.Reaches (cursor.takeWhile keep).1 (cursor.takeWhile keep).2 :=
  ⟨List.takeWhile_append_dropWhile.symm, rfl⟩

end Cursor

end RecipeGraph.Parser
