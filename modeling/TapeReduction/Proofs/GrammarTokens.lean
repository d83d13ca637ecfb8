import Mathlib.Data.List.Forall2
import TapeReduction.Proofs.LineFields
import TapeReduction.Proofs.Parsing

/-!
# Readers that follow the grammar

A reader follows an expression of the grammar if it reads where the expression yields
nodes, and is stuck where the expression fails.  The nodes show what was read.
Readers of single tokens follow the rules of the tokens, and readers one after the
other follow their expressions one after the other.
-/

namespace TapeReduction.Source

open Lines (readBoth readBoth_eq_ok_iff readBoth_eq_error_iff Visible)

/-! ## What nodes show -/

/-- Whatever nodes come behind them, the nodes are taken as the value. -/
def Spells {α : Type} [Spelled α] (a : α) (nodes : List Node) : Prop :=
  ∀ text parent rest, Spelled.ofNodes text parent (nodes ++ rest) = .ok (a, rest)

/-- The node of a number holds its digits, where they stand. -/
structure Numeral.ShownBy (n : Numeral) (node : Node) : Prop where
  start_eq : node.start = n.start
  stop_eq : node.stop = n.stop
  text_eq : node.text = n.digits
  digits_ne_nil : n.digits ≠ []
  all_isDigit : n.digits.all Char.isDigit = true

section Shown

variable {κ δ : Type} [Spelled κ] [Spelled δ]

/-- The node of an entry has the nodes of its four fields in order. -/
def Entry.ShownBy (entry : Entry κ δ) (node : Node) : Prop :=
  node.kind = .entry ∧ ∃ key target write move,
    node.children = key ++ target :: (write ++ move) ∧ Spells entry.key key ∧
      entry.target.ShownBy target ∧ Spells entry.write write ∧ Spells entry.move move

/-- The node of a row has the nodes of its count and its entries in order, and ends with the
row. -/
def Row.ShownBy (row : Row κ δ) (node : Node) : Prop :=
  node.kind = .row ∧ node.start = row.count.start ∧ node.stop = row.stop ∧
    ∃ count entries, node.children = count :: entries ∧ row.count.ShownBy count ∧
      List.Forall₂ Entry.ShownBy row.entries entries

/-- The node of a sheet has the nodes of its count and its rows in order, and the end of the
text behind them. -/
def Sheet.ShownBy (sheet : Sheet κ δ) (node : Node) : Prop :=
  node.kind = .table ∧ ∃ count rows last, node.children = count :: (rows ++ [last]) ∧
    sheet.count.ShownBy count ∧ List.Forall₂ Row.ShownBy sheet.rows rows ∧
      last.kind = .token .endOfInput

end Shown

/-! ## Readers that follow an expression -/

/-- Where the reader reads a value, the expression yields nodes that show it, up to the same
place; where the reader is stuck, the expression fails.  The reader takes something from a
line to read, and to be stuck anywhere but at the start. -/
structure Follows {α : Type} (read : Cursor → Except Stuck (α × Cursor)) (e : Peg)
    (Shows : α → List Node → Prop) : Prop where
  yields : ∀ {c next : Cursor} {a : α}, read c = .ok (a, next) →
    ∃ nodes, e.Yields c (some (nodes, next)) ∧ Shows a nodes
  fails : ∀ {c : Cursor} {stuck : Stuck}, read c = .error stuck → e.Yields c none
  inLine : ∀ {c next : Cursor} {a : α}, read c = .ok (a, next) → c.InLine
  inLine_of_stuck : ∀ {c : Cursor} {stuck : Stuck}, read c = .error stuck →
    stuck.offset ≠ c.offset → c.InLine
  shorter : ∀ {c next : Cursor} {a : α}, read c = .ok (a, next) →
    next.rest.length < c.rest.length

/-- The expression is a rule, and its only node shows the value. -/
def OneNode {α : Type} (Shows : α → Node → Prop) (a : α) (nodes : List Node) : Prop :=
  ∃ node, nodes = [node] ∧ Shows a node

namespace Follows

variable {α β : Type} {read : Cursor → Except Stuck (α × Cursor)}
  {read' : Cursor → Except Stuck (β × Cursor)} {e e' : Peg}
  {Shows : α → List Node → Prop} {Shows' : β → List Node → Prop}

theorem both (h : Follows read e Shows) (h' : Follows read' e' Shows') :
    Follows (readBoth read read') (e.followedBy e') fun p nodes =>
      ∃ first second, nodes = first ++ second ∧ Shows p.1 first ∧ Shows' p.2 second := by
  constructor
  · rintro c last ⟨a, b⟩ hread
    obtain ⟨next, hfirst, hsecond⟩ := readBoth_eq_ok_iff.mp hread
    obtain ⟨nodes, hnodes, hshows⟩ := h.yields hfirst
    obtain ⟨more, hmore, hshows'⟩ := h'.yields hsecond
    exact ⟨nodes ++ more, hnodes.followedBy hmore, nodes, more, rfl, hshows, hshows'⟩
  · intro c stuck hread
    rcases readBoth_eq_error_iff.mp hread with hfirst | ⟨a, next, hfirst, hsecond⟩
    · exact .seq_fail_left (h.fails hfirst)
    · obtain ⟨nodes, hnodes, -⟩ := h.yields hfirst
      exact hnodes.followedBy_fails (h'.fails hsecond)
  · rintro c last ⟨a, b⟩ hread
    obtain ⟨next, hfirst, -⟩ := readBoth_eq_ok_iff.mp hread
    exact h.inLine hfirst
  · intro c stuck hread hoffset
    rcases readBoth_eq_error_iff.mp hread with hfirst | ⟨a, next, hfirst, -⟩
    · exact h.inLine_of_stuck hfirst hoffset
    · exact h.inLine hfirst
  · rintro c last ⟨a, b⟩ hread
    obtain ⟨next, hfirst, hsecond⟩ := readBoth_eq_ok_iff.mp hread
    have hlt := h.shorter hfirst
    have hle := next.length_skip_le
    have hlt' := h'.shorter hsecond
    omega

/-- Nodes that show what was read may be described in another way. -/
theorem imp {Shows' : α → List Node → Prop} (h : Follows read e Shows)
    (himp : ∀ a nodes, Shows a nodes → Shows' a nodes) : Follows read e Shows' where
  yields hread := by
    obtain ⟨nodes, hnodes, hshows⟩ := h.yields hread
    exact ⟨nodes, hnodes, himp _ _ hshows⟩
  fails := h.fails
  inLine := h.inLine
  inLine_of_stuck := h.inLine_of_stuck
  shorter := h.shorter

theorem map_eq_ok_iff {c next : Cursor} {f : α → β} {b : β} :
    (read c).map (Prod.map f id) = .ok (b, next) ↔ ∃ a, read c = .ok (a, next) ∧ b = f a := by
  cases read c with
  | error stuck => simp [Except.map]
  | ok result => simp [Except.map, Prod.ext_iff, eq_comm, and_comm]

theorem map_eq_error_iff {c : Cursor} {f : α → β} {stuck : Stuck} :
    (read c).map (Prod.map f id) = .error stuck ↔ read c = .error stuck := by
  cases read c with
  | error stuck' => simp [Except.map]
  | ok result => simp [Except.map]

/-- A rule has one node, and what its parts show are the children of that node. -/
theorem rule (h : Follows read e Shows) (kind : Kind) (f : α → β)
    {ShownBy : β → Node → Prop}
    (hshown : ∀ a node, node.kind = kind → Shows a node.children → ShownBy (f a) node) :
    Follows (fun c => (read c).map (Prod.map f id)) (.rule kind e) (OneNode ShownBy) := by
  constructor
  · intro c next b hread
    obtain ⟨a, hfirst, rfl⟩ := map_eq_ok_iff.mp hread
    obtain ⟨nodes, hnodes, hshows⟩ := h.yields hfirst
    exact ⟨_, .rule_ok hnodes, _, rfl, hshown a _ rfl hshows⟩
  · intro c stuck hread
    exact .rule_fail (h.fails (map_eq_error_iff.mp hread))
  · intro c next b hread
    obtain ⟨a, hfirst, -⟩ := map_eq_ok_iff.mp hread
    exact h.inLine hfirst
  · intro c stuck hread hoffset
    exact h.inLine_of_stuck (map_eq_error_iff.mp hread) hoffset
  · intro c next b hread
    obtain ⟨a, hfirst, -⟩ := map_eq_ok_iff.mp hread
    exact h.shorter hfirst

end Follows

/-! ## Tokens -/

theorem readGlyph_eq_ok_iff {α : Type} {token : Token} {ofChar? : Char → Option α}
    {c next : Cursor} {a : α} :
    readGlyph token ofChar? c = .ok (a, next) ↔
      ∃ x rest, c.rest = x :: rest ∧ next = ⟨c.offset + 1, rest⟩ ∧ ofChar? x = some a := by
  cases hrest : c.rest with
  | nil => simp [readGlyph, hrest]
  | cons x rest =>
    cases hx : ofChar? x with
    | none => simp [readGlyph, hrest, hx]
    | some b => simp [readGlyph, hrest, hx, and_comm, eq_comm]

theorem readGlyph_eq_error_iff {α : Type} {token : Token} {ofChar? : Char → Option α}
    {c : Cursor} {stuck : Stuck} :
    readGlyph token ofChar? c = .error stuck ↔
      ⟨c.offset, [token]⟩ = stuck ∧ ∀ x rest, c.rest = x :: rest → ofChar? x = none := by
  cases hrest : c.rest with
  | nil => simp [readGlyph, hrest]
  | cons x rest =>
    cases hx : ofChar? x with
    | none => simp [readGlyph, hrest, hx]
    | some b => simp [readGlyph, hrest, hx]

/-- Readers of one character follow the rule with the characters that stand for something. -/
theorem follows_glyph {α : Type} (token : Token) {chars : List Char} {ofChar? : Char → Option α}
    {ofChar : Char → Except Fault α} (hvisible : Visible ofChar?)
    (hchars : ∀ c, chars.contains c = (ofChar? c).isSome)
    (hofChar : ∀ {c a}, ofChar? c = some a → ofChar c = .ok a) :
    Follows (readGlyph token ofChar?) (.oneOf token chars) fun a nodes =>
      ∀ text parent rest, Node.glyph ofChar text parent (nodes ++ rest) = .ok (a, rest) := by
  constructor
  · rintro ⟨offset, _⟩ next a hread
    obtain ⟨x, rest, rfl, rfl, hx⟩ := readGlyph_eq_ok_iff.mp hread
    have hmem : chars.contains x = true := by rw [hchars, hx, Option.isSome_some]
    refine ⟨_, .rule_ok (.char_ok hmem), ?_⟩
    intro text parent rest
    simp [Node.glyph, Node.next, Node.char, Node.text, hofChar hx, bind, Except.bind, pure,
      Except.pure]
  · rintro ⟨offset, cs⟩ stuck hread
    obtain ⟨-, hnone⟩ := readGlyph_eq_error_iff.mp hread
    cases cs with
    | nil => exact .rule_fail .char_end
    | cons x rest =>
      have hx : chars.contains x = false := by rw [hchars, hnone x rest rfl, Option.isSome_none]
      exact .rule_fail (.char_fail hx)
  · intro c next a hread
    obtain ⟨x, rest, hrest, -, hx⟩ := readGlyph_eq_ok_iff.mp hread
    exact ⟨x, rest, hrest, Lines.isBreak_eq_false_of_isCode (hvisible hx).1⟩
  · intro c stuck hread hoffset
    obtain ⟨rfl, -⟩ := readGlyph_eq_error_iff.mp hread
    exact absurd rfl hoffset
  · intro c next a hread
    obtain ⟨x, rest, hrest, rfl, -⟩ := readGlyph_eq_ok_iff.mp hread
    rw [hrest]
    exact Nat.lt_succ_self _

/-- As many digits are taken as there are. -/
theorem yields_digits (offset : Nat) (text : List Char) :
    (Peg.star (.char Char.isDigit)).Yields ⟨offset, text⟩
      (some ([], ⟨offset + (text.takeWhile Char.isDigit).length,
        text.dropWhile Char.isDigit⟩)) := by
  induction text generalizing offset with
  | nil => exact .star_stop .char_end
  | cons x rest ih =>
    cases hx : x.isDigit with
    | true =>
      rw [List.takeWhile_cons_of_pos hx, List.dropWhile_cons_of_pos hx, List.length_cons,
        Nat.add_comm _ 1, ← Nat.add_assoc]
      exact .star_more (.char_ok hx) (ih (offset + 1))
    | false =>
      simp only [List.takeWhile_cons, List.dropWhile_cons, hx]
      exact .star_stop (.char_fail hx)

theorem readNumeral_eq_ok_iff {token : Token} {c next : Cursor} {n : Numeral} :
    readNumeral token c = .ok (n, next) ↔
      ∃ x rest, c.rest = x :: rest ∧ x.isDigit = true ∧
        n = ⟨c.offset, x :: rest.takeWhile Char.isDigit⟩ ∧
        next = ⟨c.offset + 1 + (rest.takeWhile Char.isDigit).length,
          rest.dropWhile Char.isDigit⟩ := by
  cases hrest : c.rest with
  | nil => simp [readNumeral, hrest]
  | cons x rest =>
    cases hx : x.isDigit with
    | false => simp [readNumeral, hrest, hx]
    | true =>
      have hlength : c.offset + (x :: rest.takeWhile Char.isDigit).length =
          c.offset + 1 + (rest.takeWhile Char.isDigit).length := by
        rw [List.length_cons]
        omega
      simp only [readNumeral, hrest, List.takeWhile_cons_of_pos hx,
        List.dropWhile_cons_of_pos hx, hlength, Except.ok.injEq, Prod.mk.injEq]
      constructor
      · rintro ⟨rfl, rfl⟩
        exact ⟨x, rest, rfl, hx, rfl, rfl⟩
      · rintro ⟨_, _, heq, -, rfl, rfl⟩
        obtain ⟨rfl, rfl⟩ := List.cons.inj heq
        exact ⟨rfl, rfl⟩

theorem readNumeral_eq_error_iff {token : Token} {c : Cursor} {stuck : Stuck} :
    readNumeral token c = .error stuck ↔
      ⟨c.offset, [token]⟩ = stuck ∧ ∀ x rest, c.rest = x :: rest → x.isDigit = false := by
  cases hrest : c.rest with
  | nil => simp [readNumeral, hrest]
  | cons x rest =>
    cases hx : x.isDigit with
    | false => simp [readNumeral, hrest, hx]
    | true => simp [readNumeral, hrest, hx]

theorem follows_numeral (token : Token) :
    Follows (readNumeral token) (.numeral token) (OneNode Numeral.ShownBy) := by
  constructor
  · rintro ⟨offset, text⟩ next n hread
    obtain ⟨x, rest, rfl, hx, rfl, rfl⟩ := readNumeral_eq_ok_iff.mp hread
    refine ⟨_, .rule_ok (.seq_ok (.char_ok hx) (yields_digits (offset + 1) rest)), _, rfl, ?_⟩
    have hlength : offset + 1 + (rest.takeWhile Char.isDigit).length - offset =
        (rest.takeWhile Char.isDigit).length + 1 := by omega
    constructor
    · rfl
    · simp [Node.stop, Numeral.stop, Nat.add_comm, Nat.add_left_comm]
    · simp only [Node.text, hlength, List.take_succ_cons]
      exact congrArg _ (List.prefix_iff_eq_take.mp (List.takeWhile_prefix _)).symm
    · exact List.cons_ne_nil _ _
    · simp [hx, List.all_takeWhile]
  · rintro ⟨offset, text⟩ stuck hread
    obtain ⟨-, hnone⟩ := readNumeral_eq_error_iff.mp hread
    cases text with
    | nil => exact .rule_fail (.seq_fail_left .char_end)
    | cons x rest => exact .rule_fail (.seq_fail_left (.char_fail (hnone x rest rfl)))
  · intro c next n hread
    obtain ⟨x, rest, hrest, hx, -, -⟩ := readNumeral_eq_ok_iff.mp hread
    exact ⟨x, rest, hrest, Lines.isBreak_eq_false_of_isCode (Lines.isCode_of_isDigit hx)⟩
  · intro c stuck hread hoffset
    obtain ⟨rfl, -⟩ := readNumeral_eq_error_iff.mp hread
    exact absurd rfl hoffset
  · intro c next n hread
    obtain ⟨x, rest, hrest, -, -, rfl⟩ := readNumeral_eq_ok_iff.mp hread
    rw [hrest]
    exact Nat.lt_succ_of_le (List.dropWhile_sublist _).length_le

/-- Values that are read the way they are spelled. -/
class LawfulSpelled (α : Type) [Legible α] [Spelled α] : Prop where
  follows : Follows (Legible.read : Cursor → Except Stuck (α × Cursor)) (Spelled.grammar α) Spells

theorem contains_symbols (c : Char) :
    ['_', '0', '1'].contains c = (Symbol.ofChar? c).isSome := by
  unfold Symbol.ofChar?
  split <;> simp_all

instance : LawfulSpelled Symbol where
  follows := by
    refine follows_glyph .plain Lines.visible_symbol contains_symbols ?_
    intro c a h
    rw [Symbol.ofChar, h]

instance : LawfulSpelled Cell where
  follows := by
    refine follows_glyph .symbol Lines.visible_cell ?_ ?_
    · intro c
      unfold Cell.ofChar?
      split
      · rfl
      · rfl
      · rfl
      · rfl
      · rw [Option.isSome_map, ← contains_symbols]
        simp_all
    · intro c a h
      rw [Cell.ofChar, h]

instance : LawfulSpelled Move where
  follows := by
    refine follows_glyph .direction Lines.visible_move ?_ ?_
    · intro c
      unfold Move.ofChar?
      split <;> simp_all
    · intro c a h
      rw [Move.ofChar, h]

instance {α β : Type} [Legible α] [Spelled α] [LawfulSpelled α] [Legible β] [Spelled β]
    [LawfulSpelled β] : LawfulSpelled (α × β) where
  follows := by
    have hboth := (LawfulSpelled.follows (α := α)).both (LawfulSpelled.follows (α := β))
    refine Follows.imp hboth ?_
    rintro ⟨a, b⟩ _ ⟨first, second, rfl, hfirst, hsecond⟩ text parent rest
    have hfirst := hfirst text parent (second ++ rest)
    have hsecond := hsecond text parent rest
    rw [List.append_assoc]
    simp only [Spelled.ofNodes, hfirst, hsecond, bind, Except.bind, pure, Except.pure]

end TapeReduction.Source
