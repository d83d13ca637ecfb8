import TapeReduction.Alphabet.Text

/-!
# Transition tables

A rule says where a machine goes, what it writes and how its heads move when
it reads a key in a state.  Rules are collected in a draft, which refuses two
rules for one state and key, and a draft that passes three checks is a table:
it has a state, every target is a state, and the last state, which accepts, has
no rules.

One-tape and two-tape tables differ only in their keys and moves.  A row of a
table is a partial function on keys, so two tables with the same rules are
equal however they were drafted.
-/

namespace TapeReduction

/-- What a machine does when it has read a key in a state. -/
structure Rule (κ δ : Type) where
  target : Nat
  write : κ
  move : δ
  deriving DecidableEq

/-- Rules collected so far, a row for each state. -/
structure Draft (κ δ : Type) where
  rows : Array (κ → Option (Rule κ δ)) := #[]

namespace Draft

variable {κ δ : Type}

/-- The number of states. -/
def size (d : Draft κ δ) : Nat :=
  d.rows.size

/-- A draft of states without rules. -/
def ofSize (states : Nat) : Draft κ δ :=
  ⟨Array.replicate states fun _ => none⟩

/-- The draft with one more state, which has no rules. -/
def addState (d : Draft κ δ) : Draft κ δ :=
  ⟨d.rows.push fun _ => none⟩

/-- The rule for a key in a state. -/
def rule? (d : Draft κ δ) (state : Nat) (key : κ) : Option (Rule κ δ) :=
  match d.rows[state]? with
  | some row => row key
  | none => none

/-- The last state, which accepts. -/
def accepting (d : Draft κ δ) : Nat :=
  d.size - 1

/-- A row with a rule added for one key. -/
def extend [DecidableEq κ] (row : κ → Option (Rule κ δ)) (key : κ) (rule : Rule κ δ) :
    κ → Option (Rule κ δ) :=
  fun k => if k = key then some rule else row k

/-- The draft with a rule added.  The target need not be a state yet. -/
def add [DecidableEq κ] [Glyphs κ] (d : Draft κ δ) (state : Nat) (key : κ)
    (rule : Rule κ δ) : Except Fault (Draft κ δ) :=
  if h : state < d.rows.size then
    match d.rows[state] key with
    | some _ => .error (.duplicateRule state (label key))
    | none => .ok ⟨d.rows.set state (extend d.rows[state] key rule)⟩
  else
    .error (.invalidState state)

@[simp]
theorem size_ofSize (states : Nat) : (ofSize states : Draft κ δ).size = states := by
  simp [size, ofSize]

@[simp]
theorem rule?_ofSize (states state : Nat) (key : κ) :
    (ofSize states : Draft κ δ).rule? state key = none := by
  unfold rule? ofSize
  by_cases h : state < states
  · simp [h]
  · simp [h]

@[simp]
theorem size_addState (d : Draft κ δ) : d.addState.size = d.size + 1 := by
  simp [size, addState]

@[simp]
theorem rule?_addState (d : Draft κ δ) (state : Nat) (key : κ) :
    d.addState.rule? state key = d.rule? state key := by
  unfold rule? addState
  rw [Array.getElem?_push]
  by_cases h : state = d.rows.size
  · simp [h]
  · simp [h]

/-- A rule can be added exactly for a state of the draft and a key it has no rule for. -/
theorem add_eq_ok_iff [DecidableEq κ] [Glyphs κ] {d e : Draft κ δ} {state : Nat} {key : κ}
    {rule : Rule κ δ} :
    d.add state key rule = .ok e ↔
      ∃ h : state < d.rows.size, d.rows[state] key = none ∧
        e = ⟨d.rows.set state (extend d.rows[state] key rule)⟩ := by
  unfold add
  by_cases h : state < d.rows.size
  · cases hrule : d.rows[state] key with
    | none => simp [h, hrule, eq_comm]
    | some _ => simp [h, hrule]
  · simp [h]

theorem size_of_add_eq_ok [DecidableEq κ] [Glyphs κ] {d e : Draft κ δ} {state : Nat}
    {key : κ} {rule : Rule κ δ} (h : d.add state key rule = .ok e) : e.size = d.size := by
  obtain ⟨_, _, rfl⟩ := add_eq_ok_iff.mp h
  simp [size]

/-- Adding a rule changes what is found for its state and key, and nothing else. -/
theorem rule?_of_add_eq_ok [DecidableEq κ] [Glyphs κ] {d e : Draft κ δ} {state : Nat}
    {key : κ} {rule : Rule κ δ} (h : d.add state key rule = .ok e) (s : Nat) (k : κ) :
    e.rule? s k = if s = state ∧ k = key then some rule else d.rule? s k := by
  obtain ⟨hlt, _, rfl⟩ := add_eq_ok_iff.mp h
  by_cases hs : s = state
  · subst hs
    by_cases hk : k = key
    · simp [rule?, extend, hlt, hk]
    · simp [rule?, extend, hlt, hk]
  · have hs' : ¬state = s := fun heq => hs heq.symm
    simp [rule?, hs, hs']

/-- Every rule of the draft leads to one of its states. -/
def Closed (d : Draft κ δ) : Prop :=
  ∀ state key rule, d.rule? state key = some rule → rule.target < d.size

theorem lt_size_of_rule? {d : Draft κ δ} {state : Nat} {key : κ} {rule : Rule κ δ}
    (h : d.rule? state key = some rule) : state < d.size := by
  unfold rule? at h
  split at h
  · next row hrow => exact (Array.getElem?_eq_some_iff.mp hrow).1
  · cases h

variable [Alphabet κ]

/-- The rules of a state in ascending order of their keys. -/
def rules (d : Draft κ δ) (state : Nat) : List (κ × Rule κ δ) :=
  Alphabet.members.filterMap fun key => (d.rule? state key).map (Prod.mk key)

theorem mem_rules_iff {d : Draft κ δ} {state : Nat} {key : κ} {rule : Rule κ δ} :
    (key, rule) ∈ d.rules state ↔ d.rule? state key = some rule := by
  simp only [rules, List.mem_filterMap, Option.map_eq_some_iff, Prod.mk.injEq]
  constructor
  · rintro ⟨_, -, _, h, rfl, rfl⟩
    exact h
  · exact fun h => ⟨key, Alphabet.mem_members key, rule, h, rfl, rfl⟩

/-- The number of rules of all states. -/
def ruleCount (d : Draft κ δ) : Nat :=
  ((List.range d.size).flatMap d.rules).length

/-- The rules whose target is not a state, as pairs of source and target in
ascending order of source and key. -/
def undefinedTargets (d : Draft κ δ) : List (Nat × Nat) :=
  (List.range d.size).flatMap fun state =>
    (d.rules state).filterMap fun entry =>
      if entry.2.target < d.size then none else some (state, entry.2.target)

theorem closed_of_undefinedTargets_eq_nil {d : Draft κ δ} (h : d.undefinedTargets = []) :
    d.Closed := by
  intro state key rule hrule
  simp only [undefinedTargets, List.flatMap_eq_nil_iff, List.mem_range,
    List.filterMap_eq_nil_iff] at h
  simpa using h state (lt_size_of_rule? hrule) (key, rule) (mem_rules_iff.mpr hrule)

theorem rule?_eq_none_of_rules_eq_nil {d : Draft κ δ} {state : Nat}
    (h : d.rules state = []) (key : κ) : d.rule? state key = none := by
  cases hrule : d.rule? state key with
  | none => rfl
  | some rule =>
    have hmem := mem_rules_iff.mpr hrule
    rw [h] at hmem
    cases hmem

end Draft

/-- A draft that passed all checks. -/
structure Table (κ δ : Type) [Alphabet κ] extends Draft κ δ where
  size_pos : 0 < toDraft.size
  closed : toDraft.Closed
  accepting_rule? : ∀ key, toDraft.rule? toDraft.accepting key = none

/-- The table a draft makes, or the first check it fails. -/
def Draft.build {κ δ : Type} [Alphabet κ] (d : Draft κ δ) : Except Fault (Table κ δ) :=
  if hsize : d.size = 0 then
    .error (.unsound .noStates)
  else
    match htargets : d.undefinedTargets with
    | target :: more => .error (.unsound (.undefinedTargets (target :: more)))
    | [] =>
      match hlast : d.rules d.accepting with
      | _ :: _ => .error (.unsound (.acceptingRules d.accepting))
      | [] => .ok
        { toDraft := d
          size_pos := Nat.pos_of_ne_zero hsize
          closed := Draft.closed_of_undefinedTargets_eq_nil htargets
          accepting_rule? := Draft.rule?_eq_none_of_rules_eq_nil hlast }

/-- Rows are equal if they agree on every key. -/
instance {κ δ : Type} [DecidableEq κ] [DecidableEq δ] [Alphabet κ] :
    DecidableEq (κ → Option (Rule κ δ)) :=
  fun f g => decidable_of_iff (∀ key ∈ Alphabet.members, f key = g key)
    ⟨fun h => funext fun key => h key (Alphabet.mem_members key), fun h _ _ => h ▸ rfl⟩

instance {κ δ : Type} [DecidableEq κ] [DecidableEq δ] [Alphabet κ] :
    DecidableEq (Draft κ δ) :=
  fun d e => decidable_of_iff (d.rows = e.rows)
    ⟨fun h => by cases d; cases e; exact congrArg Draft.mk h, fun h => h ▸ rfl⟩

/-- Tables are equal if their drafts are. -/
theorem Table.ext_toDraft {κ δ : Type} [Alphabet κ] {t u : Table κ δ}
    (h : t.toDraft = u.toDraft) : t = u := by
  cases t
  cases u
  cases h
  rfl

instance {κ δ : Type} [DecidableEq κ] [DecidableEq δ] [Alphabet κ] :
    DecidableEq (Table κ δ) :=
  fun t u => decidable_of_iff (t.toDraft = u.toDraft)
    ⟨Table.ext_toDraft, fun h => h ▸ rfl⟩

/-- A table for a machine with one tape of cells. -/
abbrev OneTapeTable := Table Cell Move

/-- A table for a machine with two tapes of symbols. -/
abbrev TwoTapeTable := Table (Symbol × Symbol) (Move × Move)

end TapeReduction
