/-
# Texts that are cut off

At the end of a text, closing brackets may be missing. The text that is left is the beginning of a
whole one, behind which come only closing brackets and blanks. Such a cut can go through several
constructs at once, but it stops at the last character of a word, at a quote, a comma and an opening
bracket, and so a sequence of parts is cut in one place: what comes before is whole, and what comes
behind consists of brackets and blanks.

A gap that is cut off is still skipped, even if it is cut inside a comment, because a comment may
run to the end of the text.
-/

import RecipeGraph.Proofs.Parser.Calls
import RecipeGraph.Proofs.Parser.Spacing
import RecipeGraph.Text.Blank

namespace RecipeGraph.Parser

/-- A closing bracket or a blank. -/
def Closes (c : Char) : Prop :=
  c = ')' ∨ c = ']' ∨ c = '\x7d' ∨ Text.isBlank c = true

instance (c : Char) : Decidable (Closes c) :=
  inferInstanceAs (Decidable (_ ∨ _))

/-- The beginning of a text from whose end only closing brackets and blanks are missing. -/
def Cut (kept text : List Char) : Prop :=
  ∃ dropped, text = kept ++ dropped ∧ ∀ c ∈ dropped, Closes c

/-- A text whose last character is neither a closing bracket nor a blank. -/
def Firm (text : List Char) : Prop :=
  ∃ before c, text = before ++ [c] ∧ ¬ Closes c

section Cut

variable {kept text first second before : List Char} {c : Char}

theorem Cut.refl (text : List Char) : Cut text text :=
  ⟨[], (List.append_nil _).symm, nofun⟩

/-- What is missing may be more than the end of the text. -/
theorem Cut.before_closing (cut : Cut kept text) (closes : ∀ c ∈ second, Closes c) :
    Cut kept (text ++ second) := by
  obtain ⟨dropped, rfl, gone⟩ := cut
  exact ⟨dropped ++ second, List.append_assoc _ _ _, List.forall_mem_append.2 ⟨gone, closes⟩⟩

theorem Cut.of_nil (cut : Cut kept []) : kept = [] := by
  obtain ⟨dropped, same, _⟩ := cut
  exact (List.append_eq_nil_iff.1 same.symm).1

/-- Of two parts the first one is whole, or the second one is gone. -/
theorem Cut.append (cut : Cut kept (first ++ second)) :
    (∃ left, kept = first ++ left ∧ Cut left second) ∨
      Cut kept first ∧ ∀ c ∈ second, Closes c := by
  obtain ⟨dropped, same, closes⟩ := cut
  rcases List.append_eq_append_iff.1 same with ⟨left, rfl, rfl⟩ | ⟨gone, rfl, rfl⟩
  · exact .inl ⟨left, rfl, dropped, rfl, closes⟩
  · refine .inr ⟨⟨gone, rfl, fun c held => ?_⟩, fun c held => ?_⟩
    · exact closes c (List.mem_append_left _ held)
    · exact closes c (List.mem_append_right _ held)

/-- A firm part is whole. -/
theorem Firm.cut_append (firm : Firm first) (cut : Cut kept (first ++ second)) :
    ∃ left, kept = first ++ left ∧ Cut left second := by
  obtain ⟨before, last, rfl, opens⟩ := firm
  rcases cut.append with whole | ⟨⟨dropped, same, closes⟩, gone⟩
  · exact whole
  · obtain rfl | ⟨others, other, rfl⟩ := List.eq_nil_or_concat dropped
    · exact ⟨[], by simpa using same.symm, second, rfl, gone⟩
    · rw [List.concat_eq_append, ← List.append_assoc] at same
      have last_same := List.append_inj_right' same rfl
      rw [List.singleton_inj.1 last_same] at opens
      exact absurd (closes other (by simp)) opens

theorem Firm.cut (firm : Firm text) (cut : Cut kept text) : kept = text := by
  rw [← List.append_nil text] at cut
  obtain ⟨left, same, nothing⟩ := firm.cut_append cut
  rw [same, nothing.of_nil, List.append_nil]

theorem Firm.behind (firm : Firm text) (before : List Char) : Firm (before ++ text) := by
  obtain ⟨others, c, rfl, opens⟩ := firm
  exact ⟨before ++ others, c, (List.append_assoc _ _ _).symm, opens⟩

theorem Firm.singleton (opens : ¬ Closes c) : Firm [c] :=
  ⟨[], c, rfl, opens⟩

/-- A cut goes behind a character that is no closing bracket and no blank. -/
theorem Cut.behind_char (opens : ¬ Closes c) (cut : Cut kept (first ++ c :: second)) :
    ∃ left, kept = first ++ c :: left ∧ Cut left second := by
  have shape : first ++ c :: second = first ++ [c] ++ second := by simp
  rw [shape] at cut
  obtain ⟨left, rfl, later⟩ := ((Firm.singleton opens).behind first).cut_append cut
  exact ⟨left, by simp, later⟩

theorem Cut.behind_first (opens : ¬ Closes c) (cut : Cut kept (c :: second)) :
    ∃ left, kept = c :: left ∧ Cut left second := by
  rw [← List.nil_append (c :: second)] at cut
  exact cut.behind_char opens

/-- Of a part that begins with such a character, the beginning is left. -/
theorem Cut.starts {accept : Char → Prop} (cut : Cut kept text) (starts : Starts accept text)
    (opens : ∀ c, accept c → ¬ Closes c) : Starts accept kept := by
  obtain ⟨c, tail, rfl, held⟩ := starts
  obtain ⟨left, rfl, _⟩ := cut.behind_first (opens c held)
  exact .cons held

/-- A cut does not reach in front of a part that begins with such a character. -/
theorem Cut.behind_start {accept : Char → Prop} (cut : Cut kept (first ++ second))
    (starts : Starts accept second) (opens : ∀ c, accept c → ¬ Closes c) :
    ∃ left, kept = first ++ left ∧ Cut left second := by
  obtain ⟨c, tail, rfl, held⟩ := starts
  obtain ⟨left, rfl, ⟨dropped, rfl, closes⟩⟩ := cut.behind_char (opens c held)
  exact ⟨c :: left, rfl, dropped, rfl, closes⟩

/-- A cut goes behind a given character, or this one is gone with all that follows it. -/
theorem Cut.split (cut : Cut kept (first ++ c :: second)) :
    (∃ left, kept = first ++ c :: left ∧ Cut left second) ∨
      Cut kept first ∧ ∀ c ∈ second, Closes c := by
  rcases cut.append with ⟨left, rfl, later⟩ | ⟨before, gone⟩
  · obtain ⟨dropped, same, closes⟩ := later
    cases left with
    | nil =>
        rw [List.nil_append] at same
        refine .inr ⟨by simpa using Cut.refl first, fun other held => closes other ?_⟩
        exact same ▸ List.mem_cons_of_mem _ held
    | cons other left =>
        obtain ⟨rfl, rfl⟩ := List.cons.inj same
        exact .inl ⟨left, rfl, dropped, rfl, closes⟩
  · exact .inr ⟨before, fun other held => gone other (List.mem_cons_of_mem _ held)⟩

/-- Nothing behind it makes no difference. -/
theorem Cut.before_nil (cut : Cut kept text) : Cut (kept ++ []) (text ++ []) := by
  rwa [List.append_nil, List.append_nil]

/-- A closing bracket at the end is there, or it is missing. -/
theorem Cut.closed (cut : Cut kept (text ++ [c])) : kept = text ++ [c] ∨ Cut kept text := by
  refine cut.split.imp ?_ And.left
  rintro ⟨left, rfl, nothing⟩
  rw [nothing.of_nil]

end Cut

/-! ### Which characters close nothing -/

/-- No part of a name is a blank, not even among those that separate nothing in a recipe. -/
theorem isBlank_of_isNamePart {c : Char} (part : isNamePart c = true) : Text.isBlank c = false := by
  have ascii : (48 ≤ c.toNat ∧ c.toNat ≤ 57) ∨ (65 ≤ c.toNat ∧ c.toNat ≤ 122) := by
    have ranges : (('A'.val ≤ c.val ∧ c.val ≤ 'Z'.val ∨ 'a'.val ≤ c.val ∧ c.val ≤ 'z'.val) ∨
        '0'.val ≤ c.val ∧ c.val ≤ '9'.val) ∨ c = '_' := by
      rw [isNamePart, Bool.or_eq_true, beq_iff_eq] at part
      refine part.imp_left fun alphanumeric => ?_
      refine (Bool.or_eq_true_iff.1 alphanumeric).imp (fun letter => ?_) fun digit => ?_
      · refine (Bool.or_eq_true_iff.1 letter).imp of_decide_eq_true fun lower => ?_
        exact (Bool.and_eq_true_iff.1 lower).imp of_decide_eq_true of_decide_eq_true
      · exact (Bool.and_eq_true_iff.1 digit).imp of_decide_eq_true of_decide_eq_true
    rcases ranges with ((upper | lower) | digit) | rfl
    · have low : 65 ≤ c.toNat := upper.1
      have high : c.toNat ≤ 90 := upper.2
      omega
    · have low : 97 ≤ c.toNat := lower.1
      have high : c.toNat ≤ 122 := lower.2
      omega
    · exact .inl digit
    · decide
  simp only [Text.isBlank, Text.CharRange.anyContains, Text.blankRanges, List.any_cons,
    List.any_nil, Text.CharRange.contains, Text.CharRange.only, Bool.or_eq_false_iff,
    Bool.and_eq_false_iff, decide_eq_false_iff_not]
  grind

theorem not_closes_of_isNamePart {c : Char} (part : isNamePart c = true) : ¬ Closes c := by
  rintro (rfl | rfl | rfl | blank)
  · exact absurd part (by decide)
  · exact absurd part (by decide)
  · exact absurd part (by decide)
  · rw [isBlank_of_isNamePart part] at blank
    cases blank

theorem IsName.firm {name : String} (isName : IsName name) : Firm name.toList := by
  obtain ⟨first, others, same, start, parts⟩ := isName
  have all : ∀ c ∈ first :: others, isNamePart c = true :=
    List.forall_mem_cons.2 ⟨isNamePart_of_isNameStart start, parts⟩
  obtain nothing | ⟨before, last, whole⟩ := List.eq_nil_or_concat (first :: others)
  · cases nothing
  · rw [List.concat_eq_append] at whole
    refine ⟨before, last, same.trans whole, not_closes_of_isNamePart (all last ?_)⟩
    rw [whole]
    exact List.mem_append_right _ (List.mem_singleton_self _)

theorem not_closes_of_isNameStart {c : Char} (start : isNameStart c = true) : ¬ Closes c :=
  not_closes_of_isNamePart (isNamePart_of_isNameStart start)

theorem QuotedText.firm {content : String} {text : List Char} (written : QuotedText content text) :
    Firm text := by
  obtain @⟨mark, quote, _, _⟩ := written
  refine (Firm.singleton ?_).behind (mark :: content.toList)
  rcases quote with rfl | rfl
  all_goals decide

/-- A run ends like one of its items. -/
theorem Run.firm {α : Type} {writes : α → List Char → Prop} {between : List Char → Prop}
    {items : List α} {text : List Char} (run : Run writes between items text)
    (each : ∀ item text, writes item text → Firm text) : Firm text := by
  induction run with
  | one here => exact each _ _ here
  | more _ _ _ step => exact (step.behind _).behind _

theorem PathText.firm {path : QualifiedPath} {text : List Char} (written : PathText path text) :
    Firm text := by
  refine Run.firm written ?_
  rintro name _ ⟨isName, rfl⟩
  exact isName.firm

theorem TagText.firm {tag : Spanned QualifiedPath} {text : List Char} (written : TagText tag text) :
    Firm text := by
  obtain ⟨path⟩ := written
  exact path.firm.behind ['#']

theorem ItemText.firm {item : StyleItem} {text : List Char} (written : ItemText item text) :
    Firm text := by
  cases written with
  | tag tag => exact tag.firm
  | description quoted => exact quoted.firm
  | property _ _ _ quoted => exact ((quoted.firm.behind _).behind [':']).behind _ |>.behind _

/-! ### What a cut text begins with -/

section Beginning

variable {accept : Char → Prop} {blank : Char → Bool} {kept dropped text rest gap : List Char}

theorem Ahead.cut (ahead : Ahead accept text) (cut : Cut kept text) : Ahead accept kept := by
  obtain ⟨dropped, rfl, _⟩ := cut
  cases kept with
  | nil => exact nofun
  | cons c kept => exact .cons (ahead c rfl)

/-- A mark that does not follow a character does not follow it either if something is missing. -/
private theorem unmarked_append {mark first c : Char} (opens : ¬ Closes mark)
    (closes : ∀ c ∈ dropped, Closes c)
    (unmarked : ∀ more, c = first → rest = mark :: more → False) :
    ∀ more, c = first → rest ++ dropped = mark :: more → False := by
  intro more here same
  cases rest with
  | nil =>
      rw [List.nil_append] at same
      exact opens (closes mark (same ▸ List.mem_cons_self))
  | cons next left => exact unmarked left here (congrArg (· :: left) (List.cons.inj same).1)

/-- What stands behind a gap does not change if something is missing at the end, unless the gap goes
up to there. -/
theorem skipGapFrom_cut (closes : ∀ c ∈ dropped, Closes c) (offset : Nat) :
    (skipGapFrom blank kept offset).rest = [] ∨
      (skipGapFrom blank (kept ++ dropped) offset).rest =
        (skipGapFrom blank kept offset).rest ++ dropped := by
  induction kept, offset using skipGapFrom.induct blank
    (motive_2 := fun kept offset => (skipBlockComment blank kept offset).rest = [] ∨
      (skipBlockComment blank (kept ++ dropped) offset).rest =
        (skipBlockComment blank kept offset).rest ++ dropped)
    (motive_3 := fun kept offset => (skipLineComment blank kept offset).rest = [] ∨
      (skipLineComment blank (kept ++ dropped) offset).rest =
        (skipLineComment blank kept offset).rest ++ dropped) with
  | case1 rest offset step =>
      rw [List.cons_append, List.cons_append, skipGapFrom.eq_1, skipGapFrom.eq_1]
      exact step
  | case2 rest offset step =>
      rw [List.cons_append, List.cons_append, skipGapFrom.eq_2, skipGapFrom.eq_2]
      exact step
  | case3 c rest offset noLine noBlock held step =>
      have noLine' := unmarked_append (by decide) closes noLine
      have noBlock' := unmarked_append (by decide) closes noBlock
      rw [List.cons_append, skipGapFrom.eq_3 _ _ _ _ noLine noBlock,
        skipGapFrom.eq_3 _ _ _ _ noLine' noBlock', if_pos held, if_pos held]
      exact step
  | case4 c rest offset noLine noBlock solid =>
      have noLine' := unmarked_append (by decide) closes noLine
      have noBlock' := unmarked_append (by decide) closes noBlock
      rw [List.cons_append, skipGapFrom.eq_3 _ _ _ _ noLine noBlock,
        skipGapFrom.eq_3 _ _ _ _ noLine' noBlock', if_neg solid, if_neg solid]
      exact .inr rfl
  | case5 offset => exact .inl rfl
  | case6 offset => exact .inl rfl
  | case7 rest offset step =>
      rw [List.cons_append, List.cons_append, skipBlockComment, skipBlockComment]
      exact step
  | case8 c rest offset unclosed step =>
      have unclosed' := unmarked_append (by decide) closes unclosed
      rw [List.cons_append, skipBlockComment.eq_3 _ _ _ _ unclosed,
        skipBlockComment.eq_3 _ _ _ _ unclosed']
      exact step
  | case9 offset => exact .inl rfl
  | case10 rest offset held step =>
      rw [List.cons_append, skipLineComment, skipLineComment, if_pos held, if_pos held]
      exact step
  | case11 rest offset solid =>
      rw [List.cons_append, skipLineComment, skipLineComment, if_neg solid, if_neg solid]
      exact .inr rfl
  | case12 c rest offset other step =>
      rw [List.cons_append, skipLineComment.eq_3 _ _ _ _ other, skipLineComment.eq_3 _ _ _ _ other]
      exact step

theorem Next.cut (next : Next accept text) (cut : Cut kept text) : Next accept kept := by
  obtain ⟨dropped, rfl, closes⟩ := cut
  intro offset
  rcases skipGapFrom_cut closes offset with nothing | same
  · rw [nothing]
    exact nofun
  · exact Ahead.cut (same ▸ next offset) ⟨dropped, rfl, closes⟩

theorem Next.nil : Next accept [] :=
  fun _ => nofun

theorem Leads.cut (leads : Leads accept text) (cut : Cut kept text) : Leads accept kept := by
  obtain ⟨name, rest, rfl, isName, part, next⟩ := leads
  obtain ⟨left, rfl, later⟩ := isName.firm.cut_append cut
  exact ⟨name, left, rfl, isName, part.cut later, next.cut later⟩

/-- A gap is skipped to the end of the text even if it is cut off. -/
theorem Filling.skip_cut (slash : blank '/' = false) (filling : Filling blank gap)
    (cut : Cut kept gap) (offset : Nat) :
    skipGapFrom blank kept offset = ⟨[], offset + byteLength kept⟩ := by
  obtain ⟨dropped, rfl, closes⟩ := cut
  have skipped : skipGapFrom blank (kept ++ dropped ++ []) offset = _ := filling.skip slash
  have nothing : (skipGapFrom blank kept offset).rest = [] := by
    rcases skipGapFrom_cut closes offset with nothing | same
    · exact nothing
    · rw [List.append_nil] at skipped
      rw [skipped] at same
      exact (List.append_eq_nil_iff.1 same.symm).1
  obtain ⟨text, ⟨passed, moved⟩, _⟩ := Cursor.skipGap_spacing blank ⟨kept, offset⟩
  rw [Cursor.skipGap, nothing, List.append_nil] at passed
  obtain rfl : kept = text := passed
  rw [← nothing, ← moved]
  rfl

theorem reads_cut_gap (slash : blank '/' = false) (filling : Filling blank gap)
    (cut : Cut kept gap) :
    (Scanner.moveBy (Cursor.skipGap blank)).Reads kept [] fun _ => True := by
  intro offset
  refine ⟨(), trivial, ?_⟩
  rw [List.append_nil, Scanner.moveBy, Cursor.skipGap, filling.skip_cut slash cut]

theorem reads_nothing_gap (blank : Char → Bool) :
    (Scanner.moveBy (Cursor.skipGap blank)).Reads [] [] fun _ => True :=
  fun _ => ⟨(), trivial, rfl⟩

/-- A closing bracket may be missing at the end. -/
theorem Scanner.reads_closing_end (c : Char) : (closing c).Reads [] [] fun _ => True :=
  fun _ => ⟨(), trivial, rfl⟩

end Beginning

end RecipeGraph.Parser
