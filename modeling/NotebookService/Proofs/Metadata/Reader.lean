/-
# `NotebookService.Proofs.Metadata.Reader` — the rules of the block readers

The block readers call each other on what is left of the rows, and what they return
carries a proof that it is not longer.  `Leaves` forgets the proof: a reader makes a
value and leaves these rows.  Each rule below says this of one reader from the same said
of the readers that it calls, so a reading is put together as a derivation and no reader
has to be unfolded again.
-/
import NotebookService.Proofs.Metadata.Row

namespace NotebookService.Metadata

open NotebookService.Text

/-! ## Collecting -/

theorem foldl_put_eq_append {α : Type} {acc es : List (String × α)}
    (h : (Table.names (acc ++ es)).Nodup) :
    es.foldl (fun es e => Table.put e.1 e.2 es) acc = acc ++ es := by
  induction es generalizing acc with
  | nil => rw [List.foldl_nil, List.append_nil]
  | cons e es ih =>
      have hn : e.1 ∉ Table.names acc := by
        intro hm
        rw [Table.names, List.map_append] at h
        exact (List.nodup_append.1 h).2.2 _ hm _ List.mem_cons_self rfl
      rw [List.foldl_cons, Table.put_of_not_mem e.2 hn, ih (by simpa using h),
        List.append_assoc]
      rfl

theorem collect_eq_self {α : Type} {es : List (String × α)} (h : (Table.names es).Nodup) :
    collect es = es := by
  have hc : collect es = [] ++ es := foldl_put_eq_append h
  exact hc

/-! ## What a reader leaves -/

/-- The reader makes the value and leaves the rows. -/
def Leaves {α : Type} {n : Nat} (r : Reading α n) (a : α) (left : List Row) : Prop :=
  ∃ h : left.length ≤ n, r = .ok (a, ⟨left, h⟩)

/-- The rows begin left of a column, or there are none. -/
def Outside (d : Nat) (rows : List Row) : Prop := ∀ r ∈ rows.head?, r.indent < d

theorem Outside.mono {d e : Nat} {rows : List Row} (h : Outside d rows) (he : d ≤ e) :
    Outside e rows := fun r hr => Nat.lt_of_lt_of_le (h r hr) he

theorem outside_nil (d : Nat) : Outside d [] := fun _ h => by cases h

theorem outside_cons {d : Nat} {row : Row} (h : row.indent < d) (rest : List Row) :
    Outside d (row :: rest) := by
  rintro r ⟨⟩
  exact h

theorem outside_rowsOf {d n : Nat} {ls : List (Nat × List Char)} {rest : List Row}
    (hl : ∀ l ∈ ls.head?, l.1 < d) (h : Outside d rest) :
    Outside d (rowsOf n ls ++ rest) := by
  cases ls with
  | nil => exact h
  | cons l ls =>
      rintro r ⟨⟩
      exact hl l rfl

variable {d : Nat} {row next : Row} {rest left last : List Row} {v : Value}
  {key text : List Char} {name : String}

/-! ## Entries -/

theorem readEntry_inline (hk : splitKey? row.text = some (key, text))
    (hn : readKey key = .ok name) (ht : text ≠ []) (hv : readInline text = .ok v) :
    Leaves (readEntry d row rest) (name, v) rest := by
  refine ⟨Nat.le_refl _, ?_⟩
  rw [readEntry, hk]
  simp [Row.inline, hn, ht, hv, Except.mapError, bind, Except.bind, pure, Except.pure]

theorem readEntry_below (hk : splitKey? row.text = some (key, []))
    (hn : readKey key = .ok name) (hb : Leaves (readBelow d rest) v left) :
    Leaves (readEntry d row rest) (name, v) left := by
  obtain ⟨hl, hb⟩ := hb
  refine ⟨hl, ?_⟩
  rw [readEntry, hk]
  simp [Row.inline, hn, hb, Except.mapError, bind, Except.bind, pure, Except.pure]

theorem readBelow_block (hd : d < next.indent)
    (hb : Leaves (readBlock next.indent (next :: rest)) v left) :
    Leaves (readBelow d (next :: rest)) v left := by
  obtain ⟨hl, hb⟩ := hb
  exact ⟨hl, by rw [readBelow, if_pos hd, hb]⟩

/-! ## Mappings -/

theorem readMapping_outside (h : Outside d rest) :
    Leaves (readMapping d rest) [] rest := by
  refine ⟨Nat.le_refl _, ?_⟩
  cases rest with
  | nil => rw [readMapping]
  | cons row rest => rw [readMapping, if_pos (by simp [h row rfl])]

theorem readMapping_entry {e : String × Value} {es : List (String × Value)}
    (hd : row.indent = d) (hi : row.isItem = false)
    (he : Leaves (readEntry d row rest) e left)
    (hm : Leaves (readMapping d left) es last) :
    Leaves (readMapping d (row :: rest)) (e :: es) last := by
  obtain ⟨hl, he⟩ := he
  obtain ⟨hl', hm⟩ := hm
  refine ⟨by simp only [List.length_cons]; omega, ?_⟩
  rw [readMapping, if_neg (by simp [hd, hi]), if_neg (by omega), he]
  simp [hm, bind, Except.bind, pure, Except.pure]

/-! ## Sequences -/

theorem readSequence_outside (h : Outside d rest) :
    Leaves (readSequence d rest) [] rest := by
  refine ⟨Nat.le_refl _, ?_⟩
  cases rest with
  | nil => rw [readSequence]
  | cons row rest =>
      have hr : row.indent < d := h row rfl
      rw [readSequence, if_neg (by omega), if_pos (by simp [hr])]

theorem readSequence_item {vs : List Value} (hd : row.indent = d) (hi : row.isItem = true)
    (he : Leaves (readSequenceItem d row rest) v left)
    (hs : Leaves (readSequence d left) vs last) :
    Leaves (readSequence d (row :: rest)) (v :: vs) last := by
  obtain ⟨hl, he⟩ := he
  obtain ⟨hl', hs⟩ := hs
  refine ⟨by simp only [List.length_cons]; omega, ?_⟩
  rw [readSequence, if_neg (by omega), if_neg (by simp [hd, hi]), he]
  simp [hs, bind, Except.bind, pure, Except.pure]

theorem readSequenceItem_inline (ht : row.behindDash.text ≠ [])
    (hk : startsFlow row.behindDash.text = true ∨ splitKey? row.behindDash.text = none)
    (hv : readInline row.behindDash.text = .ok v) :
    Leaves (readSequenceItem d row rest) v rest := by
  refine ⟨Nat.le_refl _, ?_⟩
  rw [readSequenceItem.eq_def]
  rcases hk with hk | hk <;>
    simp [ht, hk, hv, Row.inline, Except.mapError, bind, Except.bind, pure, Except.pure]

theorem readSequenceItem_block (ht : row.behindDash.text = []) (hd : d < next.indent)
    (hb : Leaves (readBlock next.indent (next :: rest)) v left) :
    Leaves (readSequenceItem d row (next :: rest)) v left := by
  obtain ⟨hl, hb⟩ := hb
  refine ⟨hl, ?_⟩
  rw [readSequenceItem.eq_def]
  simp [ht, hd, hb]

theorem readSequenceItem_entry {compact : Row} {e : String × Value}
    {es : List (String × Value)} (hc : row.behindDash = compact)
    (hk : (splitKey? compact.text).isSome = true) (hf : startsFlow compact.text = false)
    (hi : compact.isItem = false)
    (he : Leaves (readEntry compact.indent compact rest) e left)
    (hm : Leaves (readMapping compact.indent left) es last) :
    Leaves (readSequenceItem d row rest) (.map (collect (e :: es))) last := by
  obtain ⟨hl, he⟩ := he
  obtain ⟨hl', hm⟩ := hm
  have ht : compact.text ≠ [] := by
    intro ht
    rw [ht] at hk
    cases hk
  refine ⟨by omega, ?_⟩
  rw [readSequenceItem.eq_def]
  simp [hc, ht, hk, hf, hi, he, hm, bind, Except.bind, pure, Except.pure]

/-! ## Blocks -/

theorem readBlock_sequence {vs : List Value} (hi : row.isItem = true)
    (hs : Leaves (readSequence d (row :: rest)) vs left) :
    Leaves (readBlock d (row :: rest)) (.list vs) left := by
  obtain ⟨hl, hs⟩ := hs
  refine ⟨hl, ?_⟩
  rw [readBlock, if_pos hi, hs]
  rfl

theorem readBlock_mapping {es : List (String × Value)} (hi : row.isItem = false)
    (hm : Leaves (readMapping d (row :: rest)) es left) :
    Leaves (readBlock d (row :: rest)) (.map (collect es)) left := by
  obtain ⟨hl, hm⟩ := hm
  refine ⟨hl, ?_⟩
  rw [readBlock, if_neg (by simp [hi]), hm]
  rfl

theorem readBelow_sequence {vs : List Value} (hd : d ≤ next.indent)
    (hi : next.isItem = true)
    (hs : Leaves (readSequence next.indent (next :: rest)) vs left) :
    Leaves (readBelow d (next :: rest)) (.list vs) left := by
  rcases Nat.lt_or_eq_of_le hd with hd | rfl
  · exact readBelow_block hd (readBlock_sequence hi hs)
  · obtain ⟨hl, hs⟩ := hs
    refine ⟨hl, ?_⟩
    rw [readBelow, if_neg (Nat.lt_irrefl _), if_pos (by simp [hi]), hs]
    rfl

theorem readRows_of_readMapping {es : List (String × Value)} (hi : row.isItem = false)
    (hm : Leaves (readMapping row.indent (row :: rest)) es []) :
    readRows (row :: rest) = .ok es := by
  obtain ⟨hl, hm⟩ := hm
  rw [readRows, if_neg (by simp [hi]), hm]
  rfl

theorem read_of_readRows {firstLine : Nat} {lines : List String} {rows : List Row}
    {es : List (String × Value)}
    (hr : rowsFrom firstLine (lines.map String.toList) = .ok rows)
    (he : readRows rows = .ok es) : read firstLine lines = .ok ⟨collect es⟩ := by
  simp only [read, hr, he, bind, Except.bind, pure, Except.pure]

end NotebookService.Metadata
