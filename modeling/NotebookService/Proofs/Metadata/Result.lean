/-
# `NotebookService.Proofs.Metadata.Result` — what the block readers give

A reader returns the rows that it leaves together with a proof that there are no more of
them, and the type of that proof names the rows that were read.  So two runs on
different rows cannot be compared as they stand.  `Reading.result` drops the proof, and
here is one equation for each reader that says its result by the results of the readers
it calls.  Arguments about two runs go by these equations and never open a reader.
-/
import NotebookService.Proofs.Metadata.Reader

namespace NotebookService.Metadata

open NotebookService.Text

/-- What a reader makes and the rows that it leaves, or why it refuses. -/
abbrev Result (α : Type) := Except Refusal (α × List Row)

/-- The result without the proof that no rows were added. -/
def Reading.result {α : Type} {n : Nat} (r : Reading α n) : Result α :=
  r.map fun p => (p.1, p.2.val)

theorem leaves_iff {α : Type} {n : Nat} {r : Reading α n} {a : α} {left : List Row} :
    Leaves r a left ↔ r.result = .ok (a, left) := by
  constructor
  · rintro ⟨h, rfl⟩
    rfl
  · intro h
    cases r with
    | error e => cases h
    | ok p =>
        obtain ⟨b, rows, hr⟩ := p
        cases h
        exact ⟨hr, rfl⟩

theorem length_le_of_result {α : Type} {n : Nat} {r : Reading α n} {a : α}
    {left : List Row} (h : r.result = .ok (a, left)) : left.length ≤ n :=
  (leaves_iff.2 h).1

/-! ## Chained results

The equations of the readers are written with `Except.map` and `Except.bind`, where the
library's lemmas about `<$>` and `>>=` do not apply. -/

section

variable {ε ε' α β γ : Type}

theorem bind_eq_ok {x : Except ε α} {f : α → Except ε β} {b : β} :
    x.bind f = .ok b ↔ ∃ a, x = .ok a ∧ f a = .ok b := by
  cases x <;> simp [Except.bind]

theorem map_eq_ok {x : Except ε α} {f : α → β} {b : β} :
    x.map f = .ok b ↔ ∃ a, x = .ok a ∧ f a = b := by
  cases x <;> simp [Except.map]

theorem mapError_eq_ok {x : Except ε α} {g : ε → ε'} {a : α} :
    x.mapError g = .ok a ↔ x = .ok a := by
  cases x <;> simp [Except.mapError]

theorem Row.inline_eq_ok {r : Row} {x : Except Fault α} {a : α} :
    r.inline x = .ok a ↔ x = .ok a := mapError_eq_ok

theorem result_map_map (x : Except ε α) (f : α → β) (g : β → γ) :
    (x.map f).map g = x.map fun a => g (f a) := by
  cases x <;> rfl

theorem result_map_bind (x : Except ε α) (f : α → Except ε β) (g : β → γ) :
    (x.bind f).map g = x.bind fun a => (f a).map g := by
  cases x <;> rfl

end

/-! ## Blocks and what stands below a key -/

theorem result_readBlock_cons (d : Nat) (row : Row) (rest : List Row) :
    (readBlock d (row :: rest)).result =
      if row.isItem then (readSequence d (row :: rest)).result.map fun p =>
        (.list p.1, p.2)
      else (readMapping d (row :: rest)).result.map fun p =>
        (.map (collect p.1), p.2) := by
  rw [readBlock]
  split
  · cases readSequence d (row :: rest) <;> rfl
  · cases readMapping d (row :: rest) <;> rfl

theorem result_readBelow_nil (d : Nat) : (readBelow d []).result = .ok (.null, []) := by
  rw [readBelow]
  rfl

theorem result_readBelow_cons (d : Nat) (next : Row) (rest : List Row) :
    (readBelow d (next :: rest)).result =
      if d < next.indent then (readBlock next.indent (next :: rest)).result
      else if next.indent = d && next.isItem then
        (readSequence d (next :: rest)).result.map fun p => (.list p.1, p.2)
      else .ok (.null, next :: rest) := by
  rw [readBelow]
  split
  · rfl
  · split
    · cases readSequence d (next :: rest) <;> rfl
    · rfl

/-! ## Entries and mappings -/

theorem result_readEntry (d : Nat) (row : Row) (rest : List Row) :
    (readEntry d row rest).result =
      match splitKey? row.text with
      | none => row.refuse (.keyExpected (String.ofList row.text))
      | some (key, text) => (row.inline (readKey key)).bind fun name =>
          if text.isEmpty then (readBelow d rest).result.map fun p => ((name, p.1), p.2)
          else (row.inline (readInline text)).map fun v => ((name, v), rest) := by
  rw [readEntry.eq_def]
  rcases splitKey? row.text with _ | ⟨key, text⟩
  · rfl
  · dsimp only
    cases row.inline (readKey key) with
    | error r => rfl
    | ok name =>
        simp only [bind, Except.bind]
        split
        · cases readBelow d rest <;> rfl
        · cases row.inline (readInline text) <;> rfl

theorem result_readMapping_nil (d : Nat) : (readMapping d []).result = .ok ([], []) := by
  rw [readMapping]
  rfl

theorem result_readMapping_cons (d : Nat) (row : Row) (rest : List Row) :
    (readMapping d (row :: rest)).result =
      if row.indent < d || (row.indent = d && row.isItem) then .ok ([], row :: rest)
      else if d < row.indent then row.refuse .unexpectedIndentation
      else (readEntry d row rest).result.bind fun p =>
        (readMapping d p.2).result.map fun q => (p.1 :: q.1, q.2) := by
  rw [readMapping]
  split
  · rfl
  · split
    · rfl
    · rcases readEntry d row rest with r | ⟨entry, left, h⟩
      · rfl
      · simp only [bind, Except.bind, Reading.result, Except.map]
        cases readMapping d left <;> rfl

/-! ## Items and sequences -/

theorem result_readSequence_nil (d : Nat) :
    (readSequence d []).result = .ok ([], []) := by
  rw [readSequence]
  rfl

theorem result_readSequence_cons (d : Nat) (row : Row) (rest : List Row) :
    (readSequence d (row :: rest)).result =
      if d < row.indent then row.refuse .unexpectedIndentation
      else if row.indent < d || !row.isItem then .ok ([], row :: rest)
      else (readSequenceItem d row rest).result.bind fun p =>
        (readSequence d p.2).result.map fun q => (p.1 :: q.1, q.2) := by
  rw [readSequence]
  split
  · rfl
  · split
    · rfl
    · rcases readSequenceItem d row rest with r | ⟨item, left, h⟩
      · rfl
      · simp only [bind, Except.bind, Reading.result, Except.map]
        cases readSequence d left <;> rfl

/-- The block behind a dash that stands alone. -/
def readBehind (d : Nat) (rows : List Row) : Result Value :=
  match rows with
  | [] => .ok (.null, [])
  | next :: rest =>
    if d < next.indent then (readBlock next.indent (next :: rest)).result
    else .ok (.null, next :: rest)

theorem result_readSequenceItem (d : Nat) (row : Row) (rest : List Row) :
    (readSequenceItem d row rest).result =
      if row.behindDash.text.isEmpty then readBehind d rest
      else if (splitKey? row.behindDash.text).isSome &&
      !startsFlow row.behindDash.text then
        if row.behindDash.isItem then row.refuse .unexpectedIndentation
        else (readEntry row.behindDash.indent row.behindDash rest).result.bind fun p =>
          (readMapping row.behindDash.indent p.2).result.map fun q =>
            (.map (collect (p.1 :: q.1)), q.2)
      else (row.inline (readInline row.behindDash.text)).map fun v => (v, rest) := by
  rw [readSequenceItem.eq_def]
  dsimp only
  split
  · cases rest with
    | nil => rfl
    | cons next rest =>
        simp only [readBehind]
        split <;> rfl
  · split
    · split
      · rfl
      · rcases readEntry row.behindDash.indent row.behindDash rest with r | ⟨entry, left,
          h⟩
        · rfl
        · simp only [bind, Except.bind, Reading.result, Except.map]
          cases readMapping row.behindDash.indent left <;> rfl
    · cases row.inline (readInline row.behindDash.text) <;> rfl

/-! ## Lines -/

theorem readRows_cons (row : Row) (rest : List Row) :
    readRows (row :: rest) =
      if row.isItem then row.refuse .listAtTop
      else (readMapping row.indent (row :: rest)).result.bind fun p =>
        match p.2 with
        | [] => .ok p.1
        | next :: _ => next.refuse .unexpectedIndentation := by
  rw [readRows]
  split
  · rfl
  · rcases readMapping row.indent (row :: rest) with r | ⟨entries, left, h⟩
    · rfl
    · cases left <;> rfl

theorem rowsFrom_cons (n : Nat) (line : List Char) (lines : List (List Char)) :
    rowsFrom n (line :: lines) =
      (rowOfLine n line).bind fun row => (rowsFrom (n + 1) lines).map fun rows =>
        row.toList ++ rows := by
  rw [rowsFrom]
  cases rowOfLine n line with
  | error r => rfl
  | ok row => cases rowsFrom (n + 1) lines <;> rfl

theorem read_eq (n : Nat) (lines : List String) :
    read n lines =
      ((rowsFrom n (lines.map String.toList)).bind readRows).map fun entries =>
        ⟨collect entries⟩ := by
  rw [read]
  cases rowsFrom n (lines.map String.toList) with
  | error r => rfl
  | ok rows =>
      show (readRows rows >>= _) = (readRows rows).map _
      cases readRows rows <;> rfl

end NotebookService.Metadata
