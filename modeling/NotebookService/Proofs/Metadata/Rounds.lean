/-
# `NotebookService.Proofs.Metadata.Rounds` — the block readers as two loops

The readers of `Metadata.Block` recurse on the rows that are left, and that they end is
part of their definition.  The same work can be done by two loops, one for the entries
of a mapping and one for the items of a sequence, which move one cursor over the rows
and call each other.  Then it is a question whether they end, since not every round
moves the cursor.  A compact item `- key: value` is read in place: the row under the
cursor is replaced by what stands behind its dash, at the column where that stands, and
the loop for entries is called on the row as it is now.

## Rounds

`Cursor.round` is one round of the loop that is running, from the head of a loop to the
next head of one.  `Run` lists the rounds from a cursor to the end, and `Cursor.goes`
says once what a round can do.

## What follows

* `round_of_reanchored`: a row that was put in place is taken, or it is an item and
  refused, or its key is refused.
* `Run.increasing`: no row is put in place twice.
* `Run.length_le`: there are at most twice as many rounds as rows, and one more for each
  call.
* `Run.taken_add_left`: when the outermost loop is done, every row that is not left was
  taken by a round of its own.

A row that was put in place may be an item again, as in `- - a: b`.  The loop for
entries leaves it alone and is done, and the row now stands further in than the loop for
items expects.  This is why the bound holds for what is refused as well.
-/
import NotebookService.Proofs.Metadata.Row

namespace NotebookService.Metadata

open NotebookService.Text

/-! ## Cursors -/

/-- A loop and what it has collected at its column. -/
inductive Loop where
  | entries (indent : Nat) (collected : List (String × Value))
  | items (indent : Nat) (collected : List Value)

/-- What a loop returns. -/
def Loop.value : Loop → Value
  | .entries _ es => .map es
  | .items _ vs => .list vs

/-- A loop that waits for a value, for a key or for an item. -/
inductive Waiting where
  | entry (indent : Nat) (collected : List (String × Value)) (key : String)
  | item (indent : Nat) (collected : List Value)

/-- The loop with the value that it has waited for. -/
def Waiting.resume : Waiting → Value → Loop
  | .entry d es key, v => .entries d (Table.put key v es)
  | .item d vs, v => .items d (vs ++ [v])

/-- The rows from the cursor on, how many there were before it, the loop that runs and
those that wait for it. -/
structure Cursor where
  pos : Nat
  rows : List Row
  loop : Loop
  waiting : List Waiting

/-- What one round of a loop does. -/
inductive Round where
  /-- The row is taken, and the loop goes on. -/
  | takes (next : Cursor)
  /-- The row is taken, and a loop is called for the rows below it. -/
  | opens (next : Cursor)
  /-- The text behind a dash is put in place of the row, and a loop is called for it. -/
  | reanchors (next : Cursor)
  /-- The loop is done, and the one that has called it goes on. -/
  | returns (next : Cursor)
  /-- The outermost loop is done, with the cursor where it is. -/
  | finishes (last : Cursor)
  /-- A row is refused, with the cursor at this position. -/
  | refuses (pos : Nat) (refusal : Refusal)

namespace Round

/-- Where the loops go on. -/
def next? : Round → Option Cursor
  | takes c | opens c | reanchors c | returns c => some c
  | finishes _ | refuses _ _ => none

/-- Where the cursor stands after the round. -/
def pos : Round → Nat
  | takes c | opens c | reanchors c | returns c | finishes c => c.pos
  | refuses p _ => p

/-- A round that calls a loop. -/
def isCall : Round → Bool
  | opens _ | reanchors _ => true
  | _ => false

/-- A round that takes a row and goes on. -/
def isTaking : Round → Bool
  | takes _ | opens _ => true
  | _ => false

/-- The position of the row that is put in place. -/
def reanchored? : Round → Option Nat
  | reanchors c => some c.pos
  | _ => none

end Round

namespace Cursor

/-- The row is taken and gives a value. -/
def take (c : Cursor) (w : Waiting) (rest : List Row) (v : Value) : Round :=
  .takes ⟨c.pos + 1, rest, w.resume v, c.waiting⟩

/-- The row is taken, and a loop is called for its value. -/
def call (c : Cursor) (w : Waiting) (rest : List Row) (loop : Loop) : Round :=
  .opens ⟨c.pos + 1, rest, loop, w :: c.waiting⟩

/-- The loop is done. -/
def leave (c : Cursor) : Round :=
  match c.waiting with
  | [] => .finishes c
  | w :: ws => .returns ⟨c.pos, c.rows, w.resume c.loop.value, ws⟩

/-- The loop for the block that begins with a row. -/
def blockLoop (row : Row) : Loop :=
  if row.isItem then .items row.indent [] else .entries row.indent []

/-- The value of a key without text: the block below it, the sequence at its own
column, or nothing. -/
def below (c : Cursor) (w : Waiting) (d : Nat) : List Row → Round
  | [] => c.take w [] .null
  | next :: rest =>
    if d < next.indent then c.call w (next :: rest) (blockLoop next)
    else if next.indent = d && next.isItem then c.call w (next :: rest) (.items d [])
    else c.take w (next :: rest) .null

/-- The value of an item that is a dash alone: the block below it, or nothing. -/
def behind (c : Cursor) (w : Waiting) (d : Nat) : List Row → Round
  | [] => c.take w [] .null
  | next :: rest =>
    if d < next.indent then c.call w (next :: rest) (blockLoop next)
    else c.take w (next :: rest) .null

/-- The value of a key or an item with text on its line.  The row is taken
before the text is read. -/
def inline (c : Cursor) (w : Waiting) (row : Row) (rest : List Row) (text : List Char) :
    Round :=
  match readInline text with
  | .error fault => .refuses (c.pos + 1) ⟨row.number, fault⟩
  | .ok v => c.take w rest v

/-- The entry that a row begins. -/
def entry (c : Cursor) (d : Nat) (es : List (String × Value)) (row : Row)
    (rest : List Row) : Round :=
  match splitKey? row.text with
  | none => .refuses c.pos ⟨row.number, .keyExpected (String.ofList row.text)⟩
  | some (key, text) =>
    match readKey key with
    | .error fault => .refuses c.pos ⟨row.number, fault⟩
    | .ok name =>
      if text.isEmpty then c.below (.entry d es name) d rest
      else c.inline (.entry d es name) row rest text

/-- The item that a row begins. -/
def item (c : Cursor) (d : Nat) (vs : List Value) (row : Row) (rest : List Row) : Round :=
  if row.behindDash.text.isEmpty then c.behind (.item d vs) d rest
  else if (splitKey? row.behindDash.text).isSome && !startsFlow row.behindDash.text then
    .reanchors ⟨c.pos, row.behindDash :: rest, .entries row.behindDash.indent [],
      .item d vs :: c.waiting⟩
  else c.inline (.item d vs) row rest row.behindDash.text

/-- A round of the loop for entries. -/
def entryRound (c : Cursor) (d : Nat) (es : List (String × Value)) : Round :=
  match c.rows with
  | [] => c.leave
  | row :: rest =>
    if row.indent < d || (row.indent = d && row.isItem) then c.leave
    else if d < row.indent then .refuses c.pos ⟨row.number, .unexpectedIndentation⟩
    else c.entry d es row rest

/-- A round of the loop for items. -/
def itemRound (c : Cursor) (d : Nat) (vs : List Value) : Round :=
  match c.rows with
  | [] => c.leave
  | row :: rest =>
    if d < row.indent then .refuses c.pos ⟨row.number, .unexpectedIndentation⟩
    else if row.indent < d || !row.isItem then c.leave
    else c.item d vs row rest

/-- One round of the loop that runs. -/
def round (c : Cursor) : Round :=
  match c.loop with
  | .entries d es => c.entryRound d es
  | .items d vs => c.itemRound d vs

/-! ## What a round can do -/

/-- The kinds of rounds, with the cursor that each leaves.  Only a loop for items puts a
row in place, and the column of what it puts there is further in than its own. -/
inductive Goes (c : Cursor) : Round → Prop where
  | finishes (h : c.waiting = []) : Goes c (.finishes c)
  | returns {w : Waiting} {ws : List Waiting} (h : c.waiting = w :: ws) :
      Goes c (.returns ⟨c.pos, c.rows, w.resume c.loop.value, ws⟩)
  | takes {row : Row} {rest : List Row} {loop : Loop} (h : c.rows = row :: rest) :
      Goes c (.takes ⟨c.pos + 1, rest, loop, c.waiting⟩)
  | opens {row : Row} {rest : List Row} {loop : Loop} {w : Waiting}
      (h : c.rows = row :: rest) :
      Goes c (.opens ⟨c.pos + 1, rest, loop, w :: c.waiting⟩)
  | reanchors {row : Row} {rest : List Row} {d : Nat} {vs : List Value}
      (h : c.rows = row :: rest)
      (hl : c.loop = .items d vs) (hd : row.indent = d)
      (hk : (splitKey? row.behindDash.text).isSome = true) :
      Goes c (.reanchors ⟨c.pos, row.behindDash :: rest,
      .entries row.behindDash.indent [], .item d vs :: c.waiting⟩)
  | refuses {p : Nat} {r : Refusal} (h : c.rows ≠ []) : Goes c (.refuses p r)

variable {c d : Cursor} {row : Row} {rest : List Row}

theorem goes_leave (c : Cursor) : c.Goes c.leave := by
  unfold leave
  split
  · rename_i h
    exact .finishes h
  · rename_i w ws h
    exact .returns h

theorem goes_inline (h : c.rows = row :: rest) (w : Waiting) (text : List Char) :
    c.Goes (c.inline w row rest text) := by
  unfold inline
  split
  · exact .refuses (by simp [h])
  · exact .takes h

theorem goes_below (h : c.rows = row :: rest) (w : Waiting) (d : Nat) :
    c.Goes (c.below w d rest) := by
  cases rest with
  | nil => exact .takes h
  | cons next rest =>
      rw [below]
      split
      · exact .opens h
      · split
        · exact .opens h
        · exact .takes h

theorem goes_behind (h : c.rows = row :: rest) (w : Waiting) (d : Nat) :
    c.Goes (c.behind w d rest) := by
  cases rest with
  | nil => exact .takes h
  | cons next rest =>
      rw [behind]
      split
      · exact .opens h
      · exact .takes h

theorem goes_entry (h : c.rows = row :: rest) (d : Nat) (es : List (String × Value)) :
    c.Goes (c.entry d es row rest) := by
  have hne : c.rows ≠ [] := by simp [h]
  unfold entry
  split
  · exact .refuses hne
  · split
    · exact .refuses hne
    · split
      · exact goes_below h _ _
      · exact goes_inline h _ _

theorem goes_item (h : c.rows = row :: rest) {d : Nat} {vs : List Value}
    (hl : c.loop = .items d vs) (hd : row.indent = d) :
    c.Goes (c.item d vs row rest) := by
  unfold item
  split
  · exact goes_behind h _ _
  · split
    · rename_i hk
      rw [Bool.and_eq_true] at hk
      exact .reanchors h hl hd hk.1
    · exact goes_inline h _ _

theorem goes_entryRound (c : Cursor) (d : Nat) (es : List (String × Value)) :
    c.Goes (c.entryRound d es) := by
  unfold entryRound
  split
  · exact c.goes_leave
  · rename_i row rest h
    split
    · exact c.goes_leave
    · split
      · exact .refuses (by simp [h])
      · exact goes_entry h _ _

theorem goes_itemRound {d : Nat} {vs : List Value} (hl : c.loop = .items d vs) :
    c.Goes (c.itemRound d vs) := by
  unfold itemRound
  split
  · exact c.goes_leave
  · rename_i row rest h
    split
    · exact .refuses (by simp [h])
    · split
      · exact c.goes_leave
      · rename_i hin hout
        have hd : row.indent = d := by
          simp at hout
          omega
        exact goes_item h hl hd

theorem goes (c : Cursor) : c.Goes c.round := by
  unfold round
  split
  · exact goes_entryRound c _ _
  · rename_i h
    exact goes_itemRound h

/-- A round that goes on moves the cursor, or changes how many loops wait, or both. -/
theorem cases_of_next? (h : c.round.next? = some d) :
    c.round = .takes d ∧ d.pos = c.pos + 1 ∧ c.rows.length = d.rows.length + 1 ∧
        d.waiting.length = c.waiting.length ∨
      c.round = .opens d ∧ d.pos = c.pos + 1 ∧ c.rows.length = d.rows.length + 1 ∧
        d.waiting.length = c.waiting.length + 1 ∨
      c.round = .reanchors d ∧ d.pos = c.pos ∧ c.rows.length = d.rows.length ∧
        d.waiting.length = c.waiting.length + 1 ∨
      c.round = .returns d ∧ d.pos = c.pos ∧ c.rows.length = d.rows.length ∧
        c.waiting.length = d.waiting.length + 1 := by
  have hg := c.goes
  generalize c.round = r at hg h ⊢
  cases hg with
  | finishes _ => cases h
  | refuses _ => cases h
  | takes hr =>
      cases h
      exact .inl ⟨rfl, rfl, by simp [hr], rfl⟩
  | opens hr =>
      cases h
      exact .inr (.inl ⟨rfl, rfl, by simp [hr], rfl⟩)
  | reanchors hr _ _ _ =>
      cases h
      exact .inr (.inr (.inl ⟨rfl, rfl, by simp [hr], rfl⟩))
  | returns hw =>
      cases h
      exact .inr (.inr (.inr ⟨rfl, rfl, rfl, by simp [hw]⟩))

/-- Where the loops end, nothing was called in the round and no row was put in place. -/
theorem cases_of_next?_eq_none (h : c.round.next? = none) :
    c.round = .finishes c ∧ c.waiting = [] ∨ ∃ p r, c.round = .refuses p r := by
  have hg := c.goes
  generalize c.round = r at hg h ⊢
  cases hg with
  | finishes hw => exact .inl ⟨rfl, hw⟩
  | refuses _ => exact .inr ⟨_, _, rfl⟩
  | takes _ => cases h
  | opens _ => cases h
  | reanchors _ _ _ _ => cases h
  | returns _ => cases h

/-- The cursor stands on a row that has just been put in place. -/
def OnReanchored (c : Cursor) : Prop := ∃ b : Cursor, b.round = .reanchors c

/-- What is put in place of a row stands further in than the loop for items
that put it there. -/
theorem exists_of_reanchors (h : c.round = .reanchors d) :
    ∃ row rest k vs, c.rows = row :: rest ∧ c.loop = .items k vs ∧
      k < row.behindDash.indent ∧
      (splitKey? row.behindDash.text).isSome = true ∧
      d = ⟨c.pos, row.behindDash :: rest, .entries row.behindDash.indent [],
        .item k vs :: c.waiting⟩ := by
  have hg := c.goes
  rw [h] at hg
  cases hg with
  | reanchors hr hl hd hk =>
      refine ⟨_, _, _, _, hr, hl, ?_, hk, rfl⟩
      simp only [Row.behindDash]
      omega

theorem OnReanchored.rows_pos (h : c.OnReanchored) : 0 < c.rows.length := by
  obtain ⟨b, hb⟩ := h
  obtain ⟨row, rest, k, vs, -, -, -, -, hc⟩ := exists_of_reanchors hb
  rw [hc]
  exact Nat.succ_pos _

/-- The row under the cursor is taken. -/
def Takes (c : Cursor) : Prop := c.round.pos = c.pos + 1

/-- The loop is done at once, and the loop for items that goes on refuses the row. -/
def Leaves (c : Cursor) (row : Row) : Prop :=
  ∃ e k vs, c.round = .returns e ∧ e.loop = .items k vs ∧
    e.round = .refuses c.pos ⟨row.number, .unexpectedIndentation⟩

/-- The key of the row is refused, and the row has not been taken. -/
def RefusesKey (c : Cursor) (row : Row) : Prop :=
  ∃ key text fault, splitKey? row.text = some (key, text) ∧ readKey key = .error fault ∧
    c.round = .refuses c.pos ⟨row.number, fault⟩

/-- An entry whose key is read takes its row, whatever becomes of its value. -/
theorem pos_entry {d : Nat} {es : List (String × Value)} {key text : List Char}
    {name : String} (hk : splitKey? row.text = some (key, text))
    (hn : readKey key = .ok name) :
    (c.entry d es row rest).pos = c.pos + 1 := by
  simp only [entry, hk, hn]
  split
  · cases rest with
    | nil => rfl
    | cons next rest =>
        rw [below]
        split
        · rfl
        · split <;> rfl
  · unfold inline
    split <;> rfl

/-- A row that was put in place is taken, unless it is an item again, which the loop for
items refuses as soon as it goes on, or its key is refused. -/
theorem round_of_reanchored (h : c.round = .reanchors d) :
    ∃ row, d.rows.head? = some row ∧
      (row.isItem = true ∧ d.Leaves row ∨ row.isItem = false ∧
        (d.Takes ∨ d.RefusesKey row)) := by
  obtain ⟨row, rest, k, vs, -, -, hk, hsplit, rfl⟩ := exists_of_reanchors h
  generalize row.behindDash = compact at hk hsplit ⊢
  obtain ⟨⟨key, text⟩, hsplit⟩ := Option.isSome_iff_exists.1 hsplit
  refine ⟨compact, rfl, ?_⟩
  cases hi : compact.isItem with
  | true =>
      refine .inl ⟨rfl, ⟨c.pos, compact :: rest, .items k (vs ++ [.map []]), c.waiting⟩,
        _, _, ?_, rfl, ?_⟩
      · simp [round, entryRound, hi, leave, Waiting.resume, Loop.value]
      · simp [round, itemRound, hk]
  | false =>
      have hround (b : Cursor) (hr : b.rows = compact :: rest) (hl : b.loop =
        .entries compact.indent []) :
          b.round = b.entry compact.indent [] compact rest := by
        simp [round, hl, entryRound, hr, hi]
      refine .inr ⟨rfl, ?_⟩
      cases hn : readKey key with
      | ok name =>
          left
          rw [Takes, hround _ rfl rfl]
          exact pos_entry hsplit hn
      | error fault =>
          refine .inr ⟨key, text, fault, hsplit, hn, ?_⟩
          rw [hround _ rfl rfl]
          simp only [entry, hsplit, hn]

end Cursor

/-! ## Runs -/

/-- The rounds from a cursor to the end. -/
inductive Run : Cursor → List Round → Prop where
  | last {c : Cursor} (h : c.round.next? = none) : Run c [c.round]
  | step {c d : Cursor} {rs : List Round} (h : c.round.next? = some d) (hr : Run d rs) :
      Run c (c.round :: rs)

/-- How many loops are called, the outermost one included. -/
def calls (rs : List Round) : Nat := rs.countP Round.isCall + 1

theorem one_le_calls (rs : List Round) : 1 ≤ calls rs := Nat.le_add_left _ _

theorem calls_cons (r : Round) (rs : List Round) :
    calls (r :: rs) = calls rs + if r.isCall then 1 else 0 := by
  rw [calls, calls, List.countP_cons]
  omega

/-- The positions of the rows that are put in place. -/
def reanchored (rs : List Round) : List Nat := rs.filterMap Round.reanchored?

namespace Run

variable {c d e : Cursor} {rs : List Round}

theorem eq_of_next?_eq_none (hr : Run c rs) (h : c.round.next? = none) :
    rs = [c.round] := by
  cases hr with
  | last _ => rfl
  | step h' _ =>
      rw [h] at h'
      cases h'

theorem exists_of_next?_eq_some (hr : Run c rs) (h : c.round.next? = some d) :
    ∃ rs', rs = c.round :: rs' ∧ Run d rs' := by
  cases hr with
  | last h' =>
      rw [h] at h'
      cases h'
  | step h' hr =>
      rw [h] at h'
      cases h'
      exact ⟨_, rfl, hr⟩

theorem unique {qs : List Round} (h : Run c qs) (hr : Run c rs) : qs = rs := by
  induction h generalizing rs with
  | last hn => exact (hr.eq_of_next?_eq_none hn).symm
  | step hs _ ih =>
      obtain ⟨rs', rfl, hr'⟩ := hr.exists_of_next?_eq_some hs
      rw [ih hr']

/-- What follows when a row was put in place: a refusal within two rounds, or first of
all the row is taken. -/
theorem cases_of_reanchored (hr : Run d rs) (h : c.round = .reanchors d) :
    (∃ p r, rs = [.refuses p r]) ∨ (∃ e p r, rs = [.returns e, .refuses p r]) ∨
      ∃ e rs', rs = d.round :: rs' ∧ (d.round = .takes e ∨ d.round = .opens e) ∧
      Run e rs' := by
  obtain ⟨row, -, ⟨-, e, k, vs, hd, -, he⟩ | ⟨-, hpos | ⟨-, -, fault, -, -, hd⟩⟩⟩ :=
    Cursor.round_of_reanchored h
  · obtain ⟨rs', rfl, hr'⟩ := hr.exists_of_next?_eq_some (d := e) (by rw [hd]; rfl)
    have hrs := hr'.eq_of_next?_eq_none (by rw [he]; rfl)
    rw [hd, hrs, he]
    exact .inr (.inl ⟨e, _, _, rfl⟩)
  · rw [Cursor.Takes] at hpos
    cases hn : d.round.next? with
    | none =>
        have hrs := hr.eq_of_next?_eq_none hn
        rcases Cursor.cases_of_next?_eq_none hn with ⟨hround, -⟩ | ⟨p, r, hround⟩
        · rw [hround, Round.pos] at hpos
          omega
        · rw [hround] at hrs
          exact .inl ⟨p, r, hrs⟩
    | some e =>
        obtain ⟨rs', hrs, hr'⟩ := hr.exists_of_next?_eq_some hn
        rcases Cursor.cases_of_next? hn with ⟨hround, -⟩ | ⟨hround, -⟩ | ⟨hround, he,
          -⟩ | ⟨hround, he, -⟩
        · exact .inr (.inr ⟨e, rs', hrs, .inl hround, hr'⟩)
        · exact .inr (.inr ⟨e, rs', hrs, .inr hround, hr'⟩)
        · rw [hround, Round.pos] at hpos
          omega
        · rw [hround, Round.pos] at hpos
          omega
  · have hrs := hr.eq_of_next?_eq_none (by rw [hd]; rfl)
    rw [hd] at hrs
    exact .inl ⟨_, _, hrs⟩

/-! ### No row is put in place twice -/

theorem le_of_mem_reanchored (hr : Run c rs) {p : Nat} (hp : p ∈ reanchored rs) :
    c.pos ≤ p := by
  induction hr with
  | @last c h =>
      rcases Cursor.cases_of_next?_eq_none h with ⟨h, -⟩ | ⟨q, r, h⟩
      · simp [h, reanchored, Round.reanchored?] at hp
      · simp [h, reanchored, Round.reanchored?] at hp
  | @step c d rs h hr ih =>
      rcases Cursor.cases_of_next? h with ⟨h, hpos, -⟩ | ⟨h, hpos, -⟩ | ⟨h, hpos,
        -⟩ | ⟨h, hpos, -⟩
      · rw [h] at hp
        have := ih hp
        omega
      · rw [h] at hp
        have := ih hp
        omega
      · rw [h] at hp
        rcases List.mem_cons.1 hp with rfl | hp
        · exact hpos.ge
        · have := ih hp
          omega
      · rw [h] at hp
        have := ih hp
        omega

theorem lt_of_mem_reanchored (hr : Run d rs) (h : c.round = .reanchors d) {p : Nat}
    (hp : p ∈ reanchored rs) :
    d.pos < p := by
  obtain ⟨q, r, rfl⟩ | ⟨e, q, r, rfl⟩ | ⟨e, rs', rfl, hround, hr'⟩ :=
    hr.cases_of_reanchored h
  · cases hp
  · cases hp
  · have hnext : d.round.next? = some e := by rcases hround with h | h <;> rw [h] <;> rfl
    have hmem : p ∈ reanchored rs' := by
      rcases hround with h | h <;> rw [h] at hp <;> exact hp
    have hle := hr'.le_of_mem_reanchored hmem
    rcases Cursor.cases_of_next? hnext with ⟨-, hpos, -⟩ | ⟨-, hpos,
      -⟩ | ⟨h', -⟩ | ⟨h', -⟩
    · omega
    · omega
    · simp [h'] at hround
    · simp [h'] at hround

/-- The rows that are put in place come one after the other. -/
theorem increasing (hr : Run c rs) : (reanchored rs).Pairwise (· < ·) := by
  induction hr with
  | @last c h =>
      rcases Cursor.cases_of_next?_eq_none h with ⟨h, -⟩ | ⟨q, r, h⟩ <;>
        rw [h] <;> exact .nil
  | @step c d rs h hr ih =>
      rcases Cursor.cases_of_next? h with ⟨h, -⟩ | ⟨h, -⟩ | ⟨h, -⟩ | ⟨h, -⟩
      · rw [h]
        exact ih
      · rw [h]
        exact ih
      · rw [h]
        exact .cons (fun p hp => hr.lt_of_mem_reanchored h hp) ih
      · rw [h]
        exact ih

/-! ### How many rounds there are -/

/-- A row is worth two rounds, one that puts it in place and one that takes it, and a
call is worth one, in which it ends.  Where a row has just been put in place, the first
of its two rounds is spent. -/
theorem length_le_of_onReanchored (hr : Run c rs) :
    rs.length ≤ 2 * c.rows.length + c.waiting.length + calls rs ∧
      (c.OnReanchored → rs.length < 2 * c.rows.length + c.waiting.length + calls rs) := by
  induction hr with
  | @last c h =>
      constructor
      · have hcalls := one_le_calls [c.round]
        rw [List.length_singleton]
        omega
      · intro hc
        have hcalls := one_le_calls [c.round]
        have hrows := hc.rows_pos
        rw [List.length_singleton]
        omega
  | @step c d rs h hr ih =>
      obtain ⟨hle, hlt⟩ := ih
      have hrun : Run c (c.round :: rs) := .step h hr
      rcases Cursor.cases_of_next? h with ⟨h, -, hrows, hw⟩ | ⟨h, -, hrows, hw⟩ | ⟨h, -,
        hrows, hw⟩ | ⟨h, -, hrows, hw⟩
      · have hc : calls (c.round :: rs) = calls rs := by
          simp [calls_cons, h, Round.isCall]
        rw [hc, List.length_cons]
        exact ⟨by omega, fun _ => by omega⟩
      · have hc : calls (c.round :: rs) = calls rs + 1 := by
          simp [calls_cons, h, Round.isCall]
        rw [hc, List.length_cons]
        exact ⟨by omega, fun _ => by omega⟩
      · have hc : calls (c.round :: rs) = calls rs + 1 := by
          simp [calls_cons, h, Round.isCall]
        have hlt := hlt ⟨c, h⟩
        rw [hc, List.length_cons]
        refine ⟨by omega, ?_⟩
        -- a row that was put in place is under the loop for entries, which
        -- puts none in place
        rintro ⟨b, hb⟩
        obtain ⟨-, -, k, vs, -, hl, -⟩ := Cursor.exists_of_reanchors h
        obtain ⟨row, rest, k', vs', -, -, -, -, hc⟩ := Cursor.exists_of_reanchors hb
        rw [hc] at hl
        cases hl
      · have hc : calls (c.round :: rs) = calls rs := by
          simp [calls_cons, h, Round.isCall]
        rw [hc, List.length_cons]
        refine ⟨by omega, ?_⟩
        intro hre
        have hcalls := one_le_calls rs
        have hpos := hre.rows_pos
        obtain ⟨b, hb⟩ := hre
        obtain ⟨p, r, hrs⟩ | ⟨e, p, r, hrs⟩ | ⟨e, rs', -, hround, -⟩ :=
          hrun.cases_of_reanchored hb
        · have hlen : rs.length + 1 = 1 := congrArg List.length hrs
          omega
        · have hlen : rs.length + 1 = 2 := congrArg List.length hrs
          omega
        · simp [h] at hround

theorem length_le (hr : Run c rs) :
    rs.length ≤ 2 * c.rows.length + c.waiting.length + calls rs :=
  hr.length_le_of_onReanchored.1

/-! ### Rows are taken one by one -/

/-- When the outermost loop is done, the rows that it leaves and those that were taken
are all the rows there were. -/
theorem taken_add_left (hr : Run c rs) {e : Cursor}
    (he : rs.getLast? = some (.finishes e)) :
    rs.countP Round.isTaking + e.rows.length = c.rows.length := by
  induction hr with
  | @last c h =>
      rcases Cursor.cases_of_next?_eq_none h with ⟨h, -⟩ | ⟨q, r, h⟩
      · rw [h] at he ⊢
        cases he
        simp [Round.isTaking]
      · rw [h] at he
        cases he
  | @step c d rs h hr ih =>
      have hlast : rs.getLast? = some (.finishes e) := by
        cases hr with
        | last _ => exact he
        | step _ _ => exact he
      have hcount := ih hlast
      rcases Cursor.cases_of_next? h with ⟨h, -, hrows, -⟩ | ⟨h, -, hrows, -⟩ | ⟨h, -,
        hrows, -⟩ | ⟨h, -, hrows, -⟩
      · rw [h, List.countP_cons_of_pos rfl]
        omega
      · rw [h, List.countP_cons_of_pos rfl]
        omega
      · rw [h, List.countP_cons_of_neg Bool.false_ne_true]
        omega
      · rw [h, List.countP_cons_of_neg Bool.false_ne_true]
        omega

end Run

end NotebookService.Metadata
