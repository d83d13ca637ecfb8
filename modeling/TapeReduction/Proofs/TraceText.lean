import TapeReduction.Proofs.PrintedTable
import TapeReduction.Trace

/-!
# The text of a trace

A trace is written in lines, and no line has a line break of its own.  So the text can
only be taken apart in one way: its last line says how the run ended, and every line
before it is a state.  An accepting state is written as any other, but always on the
last line, and what stands for a rejection or for a run given up is no number.
-/

namespace TapeReduction

theorem Text.digits_injective : Function.Injective Text.digits := by
  intro n m h
  calc
    n = Nat.ofDigitChars 10 (digits n) 0 := Nat.ofDigitChars_ten_toDigits.symm
    _ = Nat.ofDigitChars 10 (digits m) 0 := by rw [h]
    _ = m := Nat.ofDigitChars_ten_toDigits

theorem Text.notMem_digits {c : Char} (hc : c.isDigit = false) (n : Nat) :
    c ∉ Text.digits n := by
  intro hmem
  rw [Lines.isDigit_of_mem_digits hmem] at hc
  cases hc

namespace Trace

open Text (digits digits_injective notMem_digits)

/-- The lines of a trace: its states, then how the run ended. -/
def lines (t : Trace) : List (List Char) :=
  t.states.map digits ++ [verdictChars t.verdict]

theorem chars_eq_intercalate (t : Trace) : t.chars = ['\n'].intercalate t.lines := by
  obtain ⟨states, verdict⟩ := t
  induction states with
  | nil => exact List.intercalate_singleton.symm
  | cons state states ih =>
    have hne : states.map digits ++ [verdictChars verdict] ≠ [] := by
      simp
    obtain ⟨line, rest, hlines⟩ := List.exists_cons_of_ne_nil hne
    calc
      chars ⟨state :: states, verdict⟩ = digits state ++ ['\n'] ++ chars ⟨states, verdict⟩ := by
        simp [chars]
      _ = digits state ++ ['\n'] ++ ['\n'].intercalate (line :: rest) := by
        rw [ih, lines, hlines]
      _ = ['\n'].intercalate (digits state :: line :: rest) := by
        rw [List.intercalate_cons_cons]
      _ = ['\n'].intercalate (lines ⟨state :: states, verdict⟩) := by
        rw [lines, List.map_cons, List.cons_append, hlines]

theorem lineBreak_notMem_verdictChars (verdict : Option Verdict) :
    '\n' ∉ verdictChars verdict := by
  rcases verdict with _ | state | _
  · decide
  · exact notMem_digits rfl state
  · decide

/-- The lines of the text of a trace are the lines of the trace. -/
theorem splitOn_chars (t : Trace) : t.chars.splitOn '\n' = t.lines := by
  have hbreak : ∀ line ∈ t.lines, '\n' ∉ line := by
    intro line hline
    rcases List.mem_append.mp hline with hstate | hlast
    · obtain ⟨state, -, rfl⟩ := List.mem_map.mp hstate
      exact notMem_digits rfl state
    · rw [List.mem_singleton.mp hlast]
      exact lineBreak_notMem_verdictChars t.verdict
  rw [chars_eq_intercalate]
  exact List.splitOn_intercalate '\n' hbreak (by simp [lines])

/-- A number is not what stands for a rejection or for a run given up. -/
theorem verdictChars_injective : Function.Injective verdictChars := by
  have hne : ∀ state {c : Char} {cs : List Char}, c.isDigit = false → digits state ≠ c :: cs := by
    intro state c cs hc h
    apply notMem_digits hc state
    rw [h]
    exact List.mem_cons_self
  intro v v' h
  rcases v with _ | state | _ <;> rcases v' with _ | state' | _
  · rfl
  · exact absurd h.symm (hne state' rfl)
  · cases h
  · exact absurd h (hne state rfl)
  · rw [digits_injective h]
  · exact absurd h (hne state rfl)
  · cases h
  · exact absurd h.symm (hne state' rfl)
  · rfl

theorem lines_injective : Function.Injective lines := by
  intro t u h
  obtain ⟨hstates, hverdict⟩ := List.append_singleton_inj.mp h
  obtain ⟨states, verdict⟩ := t
  obtain ⟨states', verdict'⟩ := u
  obtain rfl := digits_injective.list_map hstates
  obtain rfl := verdictChars_injective hverdict
  rfl

/-- The text of a trace says which states the run went through and how it ended: only equal
traces have the same text. -/
theorem text_determines_trace (t u : Trace) : t.render = u.render ↔ t = u := by
  constructor
  · intro h
    have hchars : t.chars = u.chars := String.ofList_injective h
    apply lines_injective
    rw [← splitOn_chars, ← splitOn_chars, hchars]
  · intro h
    rw [h]

end Trace

end TapeReduction
