import TapeReduction.Source.Grammar

/-!
# Parsing expressions and blanks

An expression comes to one result at a place.  Blanks and comments are always there,
perhaps none of them, and trying them ends where skipping them does.  So a part of a
rule is tried at the first place ahead that is not blank, and line breaks that are
tried any number of times end where skipping lines does, blanks apart.
-/

namespace TapeReduction.Source

open Text (isBreak)

/-! ## Skipping -/

/-- What blanks and comments leave can be skipped again, up to the same place. -/
theorem skipBlanks_skipBlanks (breaks comment : Bool) (offset : Nat) (text : List Char) :
    skipBlanks breaks false (skipBlanks false comment offset text).offset
      (skipBlanks false comment offset text).rest = skipBlanks breaks comment offset text := by
  fun_induction skipBlanks false comment offset text with
  | case1 => rfl
  | case2 _ _ _ _ _ hfalse => cases hfalse
  | case3 _ _ _ _ hbreak => simp [skipBlanks, hbreak]
  | case4 _ _ _ _ hbreak hblank ih => rw [ih, skipBlanks, if_neg hbreak, if_pos hblank]
  | case5 _ _ _ hbreak hblank ih => rw [ih, skipBlanks, if_neg hbreak, if_neg hblank, if_pos rfl]
  | case6 comment _ _ _ hbreak hblank hhash =>
    have hcomment : comment = false := by
      cases comment with
      | false => rfl
      | true => exact absurd rfl hblank
    simp only [skipBlanks, hbreak, hhash, hcomment, if_false, Bool.false_eq_true]

theorem length_skipBlanks_le (breaks comment : Bool) (offset : Nat) (text : List Char) :
    (skipBlanks breaks comment offset text).rest.length ≤ text.length := by
  fun_induction skipBlanks breaks comment offset text with
  | case1 => exact Nat.le_refl _
  | case2 _ _ _ _ _ _ ih => exact Nat.le_succ_of_le ih
  | case3 => exact Nat.le_refl _
  | case4 _ _ _ _ _ _ ih => exact Nat.le_succ_of_le ih
  | case5 _ _ _ _ _ ih => exact Nat.le_succ_of_le ih
  | case6 => exact Nat.le_refl _

namespace Cursor

/-- A line ends at the place. -/
def AtBreak (c : Cursor) : Prop :=
  ∃ x rest, c.rest = x :: rest ∧ isBreak x = true

/-- The line goes on at the place. -/
def InLine (c : Cursor) : Prop :=
  ∃ x rest, c.rest = x :: rest ∧ isBreak x = false

theorem rest_eq_nil_or (c : Cursor) : c.rest = [] ∨ c.AtBreak ∨ c.InLine := by
  cases hrest : c.rest with
  | nil => exact .inl rfl
  | cons x rest =>
    cases hx : isBreak x with
    | true => exact .inr (.inl ⟨x, rest, hrest, hx⟩)
    | false => exact .inr (.inr ⟨x, rest, hrest, hx⟩)

theorem InLine.not_atBreak {c : Cursor} (h : c.InLine) : ¬c.AtBreak := by
  obtain ⟨x, rest, hrest, hx⟩ := h
  rintro ⟨y, more, hrest', hy⟩
  obtain ⟨rfl, -⟩ := List.cons.inj (hrest.symm.trans hrest')
  rw [hx] at hy
  cases hy

theorem InLine.rest_ne_nil {c : Cursor} (h : c.InLine) : c.rest ≠ [] := by
  obtain ⟨x, rest, hrest, -⟩ := h
  rw [hrest]
  exact List.cons_ne_nil _ _

theorem not_atBreak_of_rest_eq_nil {c : Cursor} (h : c.rest = []) : ¬c.AtBreak := by
  rintro ⟨x, rest, hrest, -⟩
  rw [h] at hrest
  cases hrest

@[simp]
theorem skip_skip (c : Cursor) : c.skip.skip = c.skip :=
  skipBlanks_skipBlanks false false c.offset c.rest

@[simp]
theorem skipLines_skip (c : Cursor) : c.skip.skipLines = c.skipLines :=
  skipBlanks_skipBlanks true false c.offset c.rest

theorem length_skip_le (c : Cursor) : c.skip.rest.length ≤ c.rest.length :=
  length_skipBlanks_le false false c.offset c.rest

theorem length_skipLines_le (c : Cursor) : c.skipLines.rest.length ≤ c.rest.length :=
  length_skipBlanks_le true false c.offset c.rest

theorem skipBlanks_eq_of_not_atBreak {comment : Bool} {offset : Nat} {text : List Char}
    (h : ¬(skipBlanks false comment offset text).AtBreak) :
    skipBlanks true comment offset text = skipBlanks false comment offset text := by
  fun_induction skipBlanks false comment offset text with
  | case1 => rfl
  | case2 _ _ _ _ _ hfalse => cases hfalse
  | case3 _ _ x rest hbreak => exact absurd ⟨x, rest, rfl, hbreak⟩ h
  | case4 _ _ _ _ hbreak hblank ih => rw [← ih h, skipBlanks, if_neg hbreak, if_pos hblank]
  | case5 _ _ _ hbreak hblank ih =>
    rw [← ih h, skipBlanks, if_neg hbreak, if_neg hblank, if_pos rfl]
  | case6 _ _ _ _ hbreak hblank hhash =>
    rw [skipBlanks, if_neg hbreak, if_neg hblank, if_neg hhash]

/-- Where no line ends behind blanks, skipping lines skips the blanks only. -/
theorem skipLines_eq_skip {c : Cursor} (h : ¬c.skip.AtBreak) : c.skipLines = c.skip :=
  skipBlanks_eq_of_not_atBreak h

end Cursor

namespace Peg

/-! ## Results -/

/-- An expression has one result at a place. -/
theorem Yields.unique {e : Peg} {c : Cursor} {r r' : Option (List Node × Cursor)}
    (h : e.Yields c r) (h' : e.Yields c r') : r = r' := by
  induction h generalizing r' with
  | empty =>
    cases h'
    rfl
  | atStart_ok hstart =>
    cases h' with
    | atStart_ok => rfl
    | atStart_fail hne => exact absurd hstart hne
  | atStart_fail hne =>
    cases h' with
    | atStart_ok hstart => exact absurd hstart hne
    | atStart_fail => rfl
  | char_ok hx =>
    cases h' with
    | char_ok => rfl
    | char_fail hx' => simp [hx] at hx'
  | char_fail hx =>
    cases h' with
    | char_ok hx' => simp [hx] at hx'
    | char_fail => rfl
  | char_end =>
    cases h'
    rfl
  | seq_ok _ _ ih ih' =>
    cases h' with
    | seq_ok g g' =>
      cases ih g
      cases ih' g'
      rfl
    | seq_fail_left g => cases ih g
    | seq_fail_right g g' =>
      cases ih g
      cases ih' g'
  | seq_fail_left _ ih =>
    cases h' with
    | seq_ok g _ => cases ih g
    | seq_fail_left => rfl
    | seq_fail_right => rfl
  | seq_fail_right _ _ ih ih' =>
    cases h' with
    | seq_ok g g' =>
      cases ih g
      cases ih' g'
    | seq_fail_left => rfl
    | seq_fail_right => rfl
  | alt_left _ ih =>
    cases h' with
    | alt_left g => exact ih g
    | alt_right g _ => cases ih g
  | alt_right _ _ ih ih' =>
    cases h' with
    | alt_left g => cases ih g
    | alt_right _ g' => exact ih' g'
  | star_stop _ ih =>
    cases h' with
    | star_stop => rfl
    | star_more g _ => cases ih g
  | star_more _ _ ih ih' =>
    cases h' with
    | star_stop g => cases ih g
    | star_more g g' =>
      cases ih g
      cases ih' g'
      rfl
  | never_ok _ ih =>
    cases h' with
    | never_ok => rfl
    | never_fail g => cases ih g
  | never_fail _ ih =>
    cases h' with
    | never_ok g => cases ih g
    | never_fail => rfl
  | rule_ok _ ih =>
    cases h' with
    | rule_ok g =>
      cases ih g
      rfl
    | rule_fail g => cases ih g
  | rule_fail _ ih =>
    cases h' with
    | rule_ok g => cases ih g
    | rule_fail => rfl

/-! ## Line breaks -/

theorem yields_only (x : Char) (offset : Nat) (rest : List Char) :
    (only x).Yields ⟨offset, x :: rest⟩ (some ([], ⟨offset + 1, rest⟩)) :=
  .char_ok (decide_eq_true rfl)

theorem only_fails {x : Char} {c : Cursor} (h : ∀ rest, c.rest ≠ x :: rest) :
    (only x).Yields c none := by
  obtain ⟨offset, text⟩ := c
  cases text with
  | nil => exact .char_end
  | cons y rest =>
    refine .char_fail (decide_eq_false ?_)
    rintro rfl
    exact h rest rfl

theorem newline_fails {c : Cursor} (h : ¬c.AtBreak) : newline.Yields c none := by
  have hfeed : (only '\n').Yields c none := only_fails fun rest hrest => h ⟨_, rest, hrest, rfl⟩
  have hreturn : (only '\r').Yields c none := only_fails fun rest hrest => h ⟨_, rest, hrest, rfl⟩
  exact .alt_right hfeed (.alt_right (.seq_fail_left hreturn) hreturn)

/-- Where a line ends, the line break is taken, and skipping lines goes on behind it. -/
theorem exists_newline {c : Cursor} (h : c.AtBreak) :
    ∃ next, newline.Yields c (some ([], next)) ∧ next.skipLines = c.skipLines ∧
      next.rest.length < c.rest.length := by
  obtain ⟨offset, _⟩ := c
  obtain ⟨x, rest, rfl, hx⟩ := h
  have hbreak : x = '\n' ∨ x = '\r' := by simpa [isBreak] using hx
  rcases hbreak with rfl | rfl
  · refine ⟨⟨offset + 1, rest⟩, .alt_left (yields_only _ _ _), ?_, Nat.lt_succ_self _⟩
    simp [Cursor.skipLines, skipBlanks, isBreak]
  · have hfail : (only '\n').Yields ⟨offset, '\r' :: rest⟩ none := only_fails (by simp)
    by_cases hfeed : ∃ more, rest = '\n' :: more
    · obtain ⟨more, rfl⟩ := hfeed
      refine ⟨⟨offset + 1 + 1, more⟩, ?_, ?_, ?_⟩
      · exact .alt_right hfail (.alt_left (.seq_ok (yields_only _ _ _) (yields_only _ _ _)))
      · simp [Cursor.skipLines, skipBlanks, isBreak]
      · simp only [List.length_cons]
        omega
    · have hfail' : (only '\n').Yields ⟨offset + 1, rest⟩ none :=
        only_fails fun more hmore => hfeed ⟨more, hmore⟩
      refine ⟨⟨offset + 1, rest⟩, ?_, ?_, Nat.lt_succ_self _⟩
      · exact .alt_right hfail
          (.alt_right (.seq_fail_right (yields_only _ _ _) hfail') (yields_only _ _ _))
      · simp [Cursor.skipLines, skipBlanks, isBreak]

/-! ## Blanks -/

theorem yields_blank {x : Char} (h : x = ' ' ∨ x = '\t') (offset : Nat) (rest : List Char) :
    blank.Yields ⟨offset, x :: rest⟩ (some ([], ⟨offset + 1, rest⟩)) := by
  rcases h with rfl | rfl
  · exact .alt_left (yields_only _ _ _)
  · exact .alt_right (only_fails (by simp)) (yields_only _ _ _)

/-- Where no blank stands, none is taken. -/
theorem no_blanks {c : Cursor} (h : ∀ x rest, c.rest = x :: rest → ¬(x = ' ' ∨ x = '\t')) :
    (star blank).Yields c (some ([], c)) := by
  have hspace : (only ' ').Yields c none :=
    only_fails fun rest hrest => h _ rest hrest (.inl rfl)
  have htab : (only '\t').Yields c none :=
    only_fails fun rest hrest => h _ rest hrest (.inr rfl)
  exact .star_stop (.alt_right hspace htab)

/-- Where no comment starts, none is taken. -/
theorem no_comments {c : Cursor} (h : ∀ x rest, c.rest = x :: rest → x ≠ '#') :
    (star (seq comment (star blank))).Yields c (some ([], c)) := by
  have hhash : (only '#').Yields c none := only_fails fun rest hrest => h _ rest hrest rfl
  exact .star_stop (.seq_fail_left (.seq_fail_left hhash))

theorem restOfLine_ends {c : Cursor} (h : ¬c.InLine) :
    restOfLine.Yields c (some ([], c)) := by
  rcases c.rest_eq_nil_or with hnil | hbreak | hline
  · have hnever : (never newline).Yields c (some ([], c)) :=
      .never_ok (newline_fails (Cursor.not_atBreak_of_rest_eq_nil hnil))
    obtain ⟨offset, _⟩ := c
    obtain rfl : _ = [] := hnil
    exact .star_stop (.seq_fail_right hnever .char_end)
  · obtain ⟨next, hnext, -⟩ := exists_newline hbreak
    exact .star_stop (.seq_fail_left (.never_fail hnext))
  · exact absurd hline h

theorem restOfLine_goes_on {x : Char} {offset : Nat} {rest : List Char} {last : Cursor}
    (hx : isBreak x = false) (h : restOfLine.Yields ⟨offset + 1, rest⟩ (some ([], last))) :
    restOfLine.Yields ⟨offset, x :: rest⟩ (some ([], last)) := by
  have hline : Cursor.InLine ⟨offset, x :: rest⟩ := ⟨x, rest, rfl, hx⟩
  exact .star_more (.seq_ok (.never_ok (newline_fails hline.not_atBreak)) (.char_ok rfl)) h

/-- From a place between tokens, or from one in a comment, the blanks and comments ahead are
taken up to where skipping them ends. -/
theorem exists_blanks (inside : Bool) (offset : Nat) (text : List Char) :
    ∃ p q, (if inside then restOfLine.Yields ⟨offset, text⟩ (some ([], p))
        else p = ⟨offset, text⟩) ∧
      (star blank).Yields p (some ([], q)) ∧
      (star (seq comment (star blank))).Yields q
        (some ([], skipBlanks false inside offset text)) := by
  induction text generalizing inside offset with
  | nil =>
    refine ⟨⟨offset, []⟩, ⟨offset, []⟩, ?_, no_blanks (by simp), no_comments (by simp)⟩
    cases inside with
    | false => rfl
    | true => exact restOfLine_ends fun hline => hline.rest_ne_nil rfl
  | cons x rest ih =>
    by_cases hbreak : isBreak x = true
    · -- Nothing is taken at the end of a line.
      have hx : x = '\n' ∨ x = '\r' := by simpa [isBreak] using hbreak
      rw [skipBlanks, if_pos hbreak]
      refine ⟨⟨offset, x :: rest⟩, ⟨offset, x :: rest⟩, ?_, no_blanks ?_, no_comments ?_⟩
      · cases inside with
        | false => rfl
        | true => exact restOfLine_ends fun hline => hline.not_atBreak ⟨x, rest, rfl, hbreak⟩
      · rcases hx with rfl | rfl
        · simp
        · simp
      · rcases hx with rfl | rfl
        · simp
        · simp
    · cases inside with
      | true =>
        obtain ⟨p, q, hp, hq, hend⟩ := ih true (offset + 1)
        refine ⟨p, q, restOfLine_goes_on (Bool.eq_false_iff.mpr hbreak) hp, hq, ?_⟩
        simpa [skipBlanks, hbreak] using hend
      | false =>
        refine ⟨⟨offset, x :: rest⟩, ?_⟩
        by_cases hblank : x = ' ' ∨ x = '\t'
        · obtain ⟨_, q, rfl, hq, hend⟩ := ih false (offset + 1)
          refine ⟨q, rfl, .star_more (yields_blank hblank _ _) hq, ?_⟩
          simpa [skipBlanks, hbreak, hblank] using hend
        · refine ⟨⟨offset, x :: rest⟩, rfl, no_blanks (by simpa using hblank), ?_⟩
          by_cases hhash : x = '#'
          · subst hhash
            obtain ⟨p, q, hp, hq, hend⟩ := ih true (offset + 1)
            simp only [skipBlanks, hbreak]
            exact .star_more (.seq_ok (.seq_ok (yields_only _ _ _) hp) hq) hend
          · simp only [skipBlanks, hbreak, not_or.mp hblank, hhash]
            exact no_comments (by simpa using hhash)

/-- Blanks and comments are always there, perhaps none of them. -/
theorem yields_blanks (c : Cursor) : blanks.Yields c (some ([], c.skip)) := by
  obtain ⟨_, q, rfl, hq, hend⟩ := exists_blanks false c.offset c.rest
  exact .seq_ok hq hend

/-! ## Parts and rounds -/

section Parts

variable {e f : Peg} {c next last : Cursor} {nodes more : List Node}
  {r : Option (List Node × Cursor)}

/-- Behind blanks, an expression comes to what it comes to where they end. -/
theorem yields_behind_blanks_iff : (seq blanks e).Yields c r ↔ e.Yields c.skip r := by
  constructor
  · intro h
    cases h with
    | seq_ok hblanks he =>
      cases hblanks.unique (yields_blanks c)
      exact he
    | seq_fail_left hblanks => cases hblanks.unique (yields_blanks c)
    | seq_fail_right hblanks he =>
      cases hblanks.unique (yields_blanks c)
      exact he
  · intro h
    cases r with
    | none => exact .seq_fail_right (yields_blanks c) h
    | some result => exact .seq_ok (yields_blanks c) h

theorem Yields.followedBy (h : e.Yields c (some (nodes, next)))
    (h' : f.Yields next.skip (some (more, last))) :
    (e.followedBy f).Yields c (some (nodes ++ more, last)) :=
  .seq_ok h (yields_behind_blanks_iff.mpr h')

theorem Yields.followedBy_fails (h : e.Yields c (some (nodes, next)))
    (h' : f.Yields next.skip none) : (e.followedBy f).Yields c none :=
  .seq_fail_right h (yields_behind_blanks_iff.mpr h')

/-- Rounds with blanks before each of them are an expression any number of times.  If there
is no round, the blanks before the first are kept. -/
theorem Yields.many (h : (star (seq blanks e)).Yields c (some (nodes, last))) :
    (nodes = [] ∧ last = c ∧ (many e).Yields c.skip (some ([], c.skip))) ∨
    ∃ first next rest, e.Yields c.skip (some (first, next)) ∧ nodes = first ++ rest ∧
      (Peg.many e).Yields c.skip (some (nodes, last)) := by
  cases h with
  | star_stop hstop =>
    exact .inl ⟨rfl, rfl, .alt_right (.seq_fail_left (yields_behind_blanks_iff.mp hstop)) .empty⟩
  | star_more hfirst hrest =>
    have hfirst := yields_behind_blanks_iff.mp hfirst
    exact .inr ⟨_, _, _, hfirst, rfl, .alt_left (.seq_ok hfirst hrest)⟩

theorem Yields.exists_many (h : (star (seq blanks e)).Yields c (some (nodes, last))) :
    ∃ last', (Peg.many e).Yields c.skip (some (nodes, last')) ∧ last'.skip = last.skip := by
  rcases h.many with ⟨rfl, rfl, hmany⟩ | ⟨_, _, _, -, -, hmany⟩
  · exact ⟨_, hmany, last.skip_skip⟩
  · exact ⟨_, hmany, rfl⟩

end Parts

/-! ## Rounds of line breaks -/

theorem exists_newline_rounds (c : Cursor) :
    ∃ last, (star (seq blanks newline)).Yields c (some ([], last)) ∧
      last.skip = c.skipLines := by
  by_cases hbreak : c.skip.AtBreak
  · obtain ⟨next, hnext, hlines, hlength⟩ := exists_newline hbreak
    have hdecrease := Nat.lt_of_lt_of_le hlength c.length_skip_le
    obtain ⟨last, hlast, hskip⟩ := exists_newline_rounds next
    refine ⟨last, .star_more (yields_behind_blanks_iff.mpr hnext) hlast, ?_⟩
    rw [hskip, hlines, Cursor.skipLines_skip]
  · refine ⟨c, .star_stop (yields_behind_blanks_iff.mpr (newline_fails hbreak)), ?_⟩
    exact (Cursor.skipLines_eq_skip hbreak).symm
termination_by c.rest.length

/-- Line breaks any number of times, and blanks behind them, end where skipping lines
does. -/
theorem exists_many_newline (c : Cursor) :
    ∃ last, (many newline).Yields c.skip (some ([], last)) ∧ last.skip = c.skipLines := by
  obtain ⟨last, hrounds, hskip⟩ := exists_newline_rounds c
  obtain ⟨last', hmany, hskip'⟩ := hrounds.exists_many
  exact ⟨last', hmany, hskip'.trans hskip⟩

theorem exists_newlines {c : Cursor} (h : c.skip.AtBreak) :
    ∃ last, newlines.Yields c.skip (some ([], last)) ∧ last.skip = c.skipLines := by
  obtain ⟨next, hnext, hlines, -⟩ := exists_newline h
  obtain ⟨last, hmany, hskip⟩ := exists_many_newline next
  refine ⟨last, hnext.followedBy hmany, ?_⟩
  rw [hskip, hlines, Cursor.skipLines_skip]

theorem newlines_fails {c : Cursor} (h : ¬c.AtBreak) : newlines.Yields c none :=
  .seq_fail_left (newline_fails h)

theorem endOfInput_fails {c : Cursor} (h : c.rest ≠ []) : endOfInput.Yields c none := by
  obtain ⟨offset, text⟩ := c
  cases text with
  | nil => exact absurd rfl h
  | cons x rest => exact .rule_fail (.never_fail (.char_ok rfl))

theorem yields_endOfInput {c : Cursor} (h : c.rest = []) :
    ∃ node, endOfInput.Yields c (some ([node], c)) ∧ node.kind = .token .endOfInput := by
  obtain ⟨offset, text⟩ := c
  obtain rfl : text = [] := h
  exact ⟨_, .rule_ok (.never_ok .char_end), rfl⟩

end Peg

end TapeReduction.Source
