/-
# `NotebookService.Proofs.Metadata.Placed` — a block in another place is read as before

The readers compare columns with columns and never ask how far to the left a block
begins.  They stop where the rows that belong to them stop, whatever comes behind.  And
they use the number of a row only to refuse it.  So rows that are all moved in by the
same amount, that get other numbers, and that have other rows behind them give the same
values and the same faults (`readMapping_placed` and its companions).

The condition is on the rows behind.  A mapping at a column goes on with whatever stands
at that column, so what follows it has to begin further out.  A sequence, and a key
without a value, may also be followed by a row at their own column that is no item: this
is how the next key of the mapping around them begins (`Ends`).
-/
import NotebookService.Proofs.Metadata.Result

namespace NotebookService.Metadata

open NotebookService.Text

variable {k d : Nat} {f : Nat → Nat} {tail rest : List Row} {row : Row}

/-! ## Rows in another place -/

/-- The row `k` columns further in, its number changed. -/
def Row.moved (k : Nat) (f : Nat → Nat) (r : Row) : Row :=
  ⟨f r.number, r.indent + k, r.text⟩

/-- The refusal of a line whose number was changed. -/
def Refusal.moved (f : Nat → Nat) (r : Refusal) : Refusal := ⟨f r.line, r.fault⟩

/-- Rows in another place: further in, under other numbers, and with rows behind them. -/
def placed (k : Nat) (f : Nat → Nat) (tail rows : List Row) : List Row :=
  rows.map (Row.moved k f) ++ tail

/-- The result of a reader that met the same rows in another place. -/
def Result.placed {α : Type} (k : Nat) (f : Nat → Nat) (tail : List Row) :
    Result α → Result α
  | .ok (a, left) => .ok (a, Metadata.placed k f tail left)
  | .error r => .error (r.moved f)

@[simp] theorem placed_nil : placed k f tail [] = tail := rfl

@[simp] theorem placed_cons :
    placed k f tail (row :: rest) = row.moved k f :: placed k f tail rest := rfl

@[simp] theorem Row.indent_moved (r : Row) : (r.moved k f).indent = r.indent + k := rfl

@[simp] theorem Row.text_moved (r : Row) : (r.moved k f).text = r.text := rfl

@[simp] theorem Row.isItem_moved (r : Row) : (r.moved k f).isItem = r.isItem := rfl

theorem Row.behindDash_moved (r : Row) :
    (r.moved k f).behindDash = r.behindDash.moved k f := by
  simp only [Row.behindDash, Row.moved, Row.mk.injEq, and_true, true_and]
  omega

/-! ## Where a reader stops -/

/-- The rows end what is read at a column, items of a sequence there included. -/
def Ends (d : Nat) (rows : List Row) : Prop :=
  ∀ r ∈ rows.head?, r.indent < d ∨ r.indent = d ∧ r.isItem = false

theorem Outside.ends (h : Outside d rest) : Ends d rest := fun r hr => .inl (h r hr)

theorem Ends.outside {e : Nat} (h : Ends d rest) (he : d < e) : Outside e rest := by
  intro r hr
  have := h r hr
  omega

theorem readBelow_ends (h : Ends d rest) :
    (readBelow d rest).result = .ok (.null, rest) := by
  cases rest with
  | nil => exact result_readBelow_nil d
  | cons row rest =>
      have hr := h row rfl
      rw [result_readBelow_cons, if_neg (by omega), if_neg]
      rcases hr with hr | ⟨-, hi⟩
      · simp [Nat.ne_of_lt hr]
      · simp [hi]

theorem readSequence_ends (h : Ends d rest) :
    (readSequence d rest).result = .ok ([], rest) := by
  cases rest with
  | nil => exact result_readSequence_nil d
  | cons row rest =>
      have hr := h row rfl
      rw [result_readSequence_cons, if_neg (by omega), if_pos]
      rcases hr with hr | ⟨-, hi⟩
      · simp [hr]
      · simp [hi]

theorem readBehind_ends (h : Ends d rest) : readBehind d rest = .ok (.null, rest) := by
  cases rest with
  | nil => rfl
  | cons row rest =>
      have hr := h row rfl
      exact if_neg (by omega)

theorem readSequenceItem_null {row : Row} (ht : row.behindDash.text = [])
    (h : Ends d rest) : Leaves (readSequenceItem d row rest) .null rest := by
  refine leaves_iff.2 ?_
  rw [result_readSequenceItem, if_pos (by simp [ht]), readBehind_ends h]

/-! ## The readers

One induction for the six of them, by the rows that are left, as they call each
other.  Where the rows run out the other rows begin, and it is only there that the
condition on these is used. -/

mutual

theorem readBlock_placed (k : Nat) (f : Nat → Nat) {tail : List Row} (d : Nat) (row : Row)
    (rest : List Row) (h : Outside (d + k) tail) :
    (readBlock (d + k) (placed k f tail (row :: rest))).result =
      (readBlock d (row :: rest)).result.placed k f tail := by
  have hs := readSequence_placed k f d (row :: rest) h.ends
  have hm := readMapping_placed k f d (row :: rest) h
  rw [placed_cons] at hs hm ⊢
  rw [result_readBlock_cons, result_readBlock_cons, Row.isItem_moved, hs, hm]
  split
  · cases (readSequence d (row :: rest)).result <;> rfl
  · cases (readMapping d (row :: rest)).result <;> rfl
termination_by (rest.length + 1, 1)
decreasing_by
  all_goals exact Prod.Lex.right _ (by decide)

theorem readBelow_placed (k : Nat) (f : Nat → Nat) {tail : List Row} (d : Nat)
    (rows : List Row) (h : Ends (d + k) tail) :
    (readBelow (d + k) (placed k f tail rows)).result =
      (readBelow d rows).result.placed k f tail := by
  match rows with
  | [] => rw [placed_nil, readBelow_ends h, result_readBelow_nil]; rfl
  | next :: rest =>
      have hs := readSequence_placed k f d (next :: rest) h
      rw [placed_cons] at hs ⊢
      rw [result_readBelow_cons, result_readBelow_cons, Row.isItem_moved, hs,
        Row.indent_moved]
      simp only [Nat.add_lt_add_iff_right, Nat.add_right_cancel_iff]
      split
      · rename_i hd
        exact readBlock_placed k f next.indent next rest
          (h.outside (Nat.add_lt_add_right hd k))
      · split
        · cases (readSequence d (next :: rest)).result <;> rfl
        · rfl
termination_by (rows.length, 2)
decreasing_by
  all_goals exact Prod.Lex.right _ (by decide)

theorem readEntry_placed (k : Nat) (f : Nat → Nat) {tail : List Row} (d : Nat) (row : Row)
    (rest : List Row) (h : Ends (d + k) tail) :
    (readEntry (d + k) (row.moved k f) (placed k f tail rest)).result =
      (readEntry d row rest).result.placed k f tail := by
  have hb := readBelow_placed k f d rest h
  have hi {α : Type} (x : Except Fault α) : (row.moved k f).inline x =
      (row.inline x).mapError (Refusal.moved f) := by
    cases x <;> rfl
  rw [result_readEntry, result_readEntry, Row.text_moved]
  cases splitKey? row.text with
  | none => rfl
  | some p =>
      simp only [hi]
      cases row.inline (readKey p.1) with
      | error r => rfl
      | ok name =>
          simp only [Except.mapError, Except.bind, hb]
          split
          · cases (readBelow d rest).result <;> rfl
          · cases row.inline (readInline p.2) <;> rfl
termination_by (rest.length, 3)
decreasing_by
  exact Prod.Lex.right _ (by decide)

theorem readMapping_placed (k : Nat) (f : Nat → Nat) {tail : List Row} (d : Nat)
    (rows : List Row) (h : Outside (d + k) tail) :
    (readMapping (d + k) (placed k f tail rows)).result =
      (readMapping d rows).result.placed k f tail := by
  match rows with
  | [] =>
      rw [placed_nil, leaves_iff.1 (readMapping_outside h), result_readMapping_nil]; rfl
  | row :: rest =>
      rw [placed_cons, result_readMapping_cons, result_readMapping_cons, Row.isItem_moved,
        Row.indent_moved, readEntry_placed k f d row rest h.ends]
      simp only [Nat.add_lt_add_iff_right, Nat.add_right_cancel_iff]
      split
      · rfl
      · split
        · rfl
        · cases he : (readEntry d row rest).result with
          | error r => rfl
          | ok p =>
              have hl := length_le_of_result he
              have hm := readMapping_placed k f d p.2 h
              simp only [Result.placed, Except.bind, hm]
              cases (readMapping d p.2).result <;> rfl
termination_by (rows.length, 0)
decreasing_by
  · exact Prod.Lex.left _ _ (by simp)
  · exact Prod.Lex.left _ _ (by simp only [List.length_cons]; omega)

theorem readSequence_placed (k : Nat) (f : Nat → Nat) {tail : List Row} (d : Nat)
    (rows : List Row) (h : Ends (d + k) tail) :
    (readSequence (d + k) (placed k f tail rows)).result =
      (readSequence d rows).result.placed k f tail := by
  match rows with
  | [] => rw [placed_nil, readSequence_ends h, result_readSequence_nil]; rfl
  | row :: rest =>
      rw [placed_cons, result_readSequence_cons, result_readSequence_cons,
        Row.isItem_moved, Row.indent_moved]
      simp only [Nat.add_lt_add_iff_right]
      split
      · rfl
      · split
        · rfl
        · rename_i hd hi
          have hr : d ≤ row.indent := by
            simp at hi
            omega
          rw [readSequenceItem_placed k f d row rest h hr]
          cases he : (readSequenceItem d row rest).result with
          | error r => rfl
          | ok p =>
              have hl := length_le_of_result he
              have hm := readSequence_placed k f d p.2 h
              simp only [Result.placed, Except.bind, hm]
              cases (readSequence d p.2).result <;> rfl
termination_by (rows.length, 0)
decreasing_by
  · exact Prod.Lex.left _ _ (by simp)
  · exact Prod.Lex.left _ _ (by simp only [List.length_cons]; omega)

theorem readSequenceItem_placed (k : Nat) (f : Nat → Nat) {tail : List Row} (d : Nat)
    (row : Row) (rest : List Row) (h : Ends (d + k) tail) (hr : d ≤ row.indent) :
    (readSequenceItem (d + k) (row.moved k f) (placed k f tail rest)).result =
      (readSequenceItem d row rest).result.placed k f tail := by
  have hc : d < row.behindDash.indent := by
    simp only [Row.behindDash]
    omega
  have ho := h.outside (Nat.add_lt_add_right hc k)
  have he := readEntry_placed k f row.behindDash.indent row.behindDash rest ho.ends
  rw [result_readSequenceItem, result_readSequenceItem, Row.behindDash_moved,
    Row.text_moved, Row.isItem_moved, Row.indent_moved, he]
  split
  · match rest with
    | [] => rw [placed_nil, readBehind_ends h]; rfl
    | next :: rows =>
        simp only [placed_cons, readBehind, Row.indent_moved, Nat.add_lt_add_iff_right]
        split
        · rename_i hd
          exact readBlock_placed k f next.indent next rows
            (h.outside (Nat.add_lt_add_right hd k))
        · rfl
  · split
    · split
      · rfl
      · cases he : (readEntry row.behindDash.indent row.behindDash rest).result with
        | error r => rfl
        | ok p =>
            have hl := length_le_of_result he
            have hm := readMapping_placed k f row.behindDash.indent p.2 ho
            simp only [Result.placed, Except.bind, hm]
            cases (readMapping row.behindDash.indent p.2).result <;> rfl
    · cases hv : readInline row.behindDash.text <;> rfl
termination_by (rest.length, 4)
decreasing_by
  · exact Prod.Lex.right _ (by decide)
  · exact Prod.Lex.right' _ hl (by decide)
  · exact Prod.Lex.right _ (by decide)

end

end NotebookService.Metadata
