/-
# `NotebookService.Proofs.Metadata.Taken` — which rows a reader takes

A block reader takes rows from the front and leaves the others as they are.  Where it
stops is decided by columns: what stands below a key at column `d` are the rows further
in, and the items of a sequence at `d` itself (`Row.IsBelow`).  So the entries of a
mapping at `d` begin at those of its rows that stand at `d` and are no items, and the
keys that are written are the keys of these rows, in this order, whatever stands between
them (`readMapping_keys`).
-/
import NotebookService.Proofs.Metadata.Result
import NotebookService.Table

namespace NotebookService.Metadata

open NotebookService.Text

variable {d : Nat} {row : Row} {rest rows left last : List Row} {P Q : Row → Prop}

/-! ## Rows that are taken -/

/-- The row belongs to what began above it at the column: it stands further in, or
it is an item there. -/
def Row.IsBelow (d : Nat) (r : Row) : Prop :=
  d < r.indent ∨ r.indent = d ∧ r.isItem = true

theorem Row.IsBelow.le {r : Row} (h : r.IsBelow d) : d ≤ r.indent := by
  rcases h with h | ⟨rfl, -⟩
  · exact Nat.le_of_lt h
  · exact Nat.le_refl _

/-- The rows are some of this kind and then those that are left. -/
def Takes (P : Row → Prop) (rows left : List Row) : Prop :=
  ∃ taken, rows = taken ++ left ∧ ∀ r ∈ taken, P r

namespace Takes

theorem refl (P : Row → Prop) (rows : List Row) : Takes P rows rows := ⟨[], rfl, by simp⟩

theorem cons (hr : P row) (h : Takes P rest left) : Takes P (row :: rest) left := by
  obtain ⟨taken, rfl, ht⟩ := h
  refine ⟨row :: taken, rfl, ?_⟩
  intro r hm
  rcases List.mem_cons.1 hm with rfl | hm
  · exact hr
  · exact ht r hm

theorem trans (h : Takes P rows left) (h' : Takes P left last) : Takes P rows last := by
  obtain ⟨taken, rfl, ht⟩ := h
  obtain ⟨taken', rfl, ht'⟩ := h'
  refine ⟨taken ++ taken', (List.append_assoc _ _ _).symm, ?_⟩
  intro r hm
  rcases List.mem_append.1 hm with hm | hm
  · exact ht r hm
  · exact ht' r hm

theorem mono (hPQ : ∀ r, P r → Q r) (h : Takes P rows left) : Takes Q rows left := by
  obtain ⟨taken, hr, ht⟩ := h
  exact ⟨taken, hr, fun r hm => hPQ r (ht r hm)⟩

theorem suffix (h : Takes P rows left) : left <:+ rows := by
  obtain ⟨taken, hr, -⟩ := h
  exact ⟨taken, hr.symm⟩

end Takes

/-! ## The readers

One induction for all of them, as they call each other. -/

mutual

theorem readBlock_takes (d : Nat) (row : Row) (rest : List Row) {v : Value}
    {left : List Row} (h : (readBlock d (row :: rest)).result = .ok (v, left)) :
    Takes (fun r => d ≤ r.indent) (row :: rest) left := by
  rw [result_readBlock_cons] at h
  split at h
  · obtain ⟨p, hp, he⟩ := map_eq_ok.1 h
    cases he
    exact (readSequence_takes d (row :: rest) hp).mono fun r hr => hr.le
  · obtain ⟨p, hp, he⟩ := map_eq_ok.1 h
    cases he
    exact readMapping_takes d (row :: rest) hp
termination_by (rest.length + 1, 1)
decreasing_by
  all_goals exact Prod.Lex.right _ (by decide)

theorem readBelow_takes (d : Nat) (rows : List Row) {v : Value} {left : List Row}
    (h : (readBelow d rows).result = .ok (v, left)) :
    Takes (Row.IsBelow d) rows left := by
  match rows with
  | [] =>
      rw [result_readBelow_nil] at h
      cases h
      exact .refl _ _
  | next :: rest =>
      rw [result_readBelow_cons] at h
      split at h
      · rename_i hd
        exact (readBlock_takes next.indent next rest h).mono fun r hr =>
          .inl (Nat.lt_of_lt_of_le hd hr)
      · split at h
        · obtain ⟨p, hp, he⟩ := map_eq_ok.1 h
          cases he
          exact readSequence_takes d (next :: rest) hp
        · cases h
          exact .refl _ _
termination_by (rows.length, 2)
decreasing_by
  all_goals exact Prod.Lex.right _ (by decide)

theorem readBehind_takes (d : Nat) (rows : List Row) {v : Value} {left : List Row}
    (h : readBehind d rows = .ok (v, left)) :
    Takes (fun r => d < r.indent) rows left := by
  match rows with
  | [] =>
      cases h
      exact .refl _ _
  | next :: rest =>
      rw [readBehind] at h
      split at h
      · rename_i hd
        exact (readBlock_takes next.indent next rest h).mono fun r hr =>
          Nat.lt_of_lt_of_le hd hr
      · cases h
        exact .refl _ _
termination_by (rows.length, 2)
decreasing_by
  exact Prod.Lex.right _ (by decide)

theorem readEntry_takes (d : Nat) (row : Row) (rest : List Row) {e : String × Value}
    {left : List Row} (h : (readEntry d row rest).result = .ok (e, left)) :
    Takes (Row.IsBelow d) rest left := by
  rw [result_readEntry] at h
  split at h
  · cases h
  · obtain ⟨name, -, h⟩ := bind_eq_ok.1 h
    split at h
    · obtain ⟨p, hp, he⟩ := map_eq_ok.1 h
      cases he
      exact readBelow_takes d rest hp
    · obtain ⟨v, -, he⟩ := map_eq_ok.1 h
      cases he
      exact .refl _ _
termination_by (rest.length, 3)
decreasing_by
  exact Prod.Lex.right _ (by decide)

theorem readMapping_takes (d : Nat) (rows : List Row) {es : List (String × Value)}
    {left : List Row} (h : (readMapping d rows).result = .ok (es, left)) :
    Takes (fun r => d ≤ r.indent) rows left := by
  match rows with
  | [] =>
      rw [result_readMapping_nil] at h
      cases h
      exact .refl _ _
  | row :: rest =>
      rw [result_readMapping_cons] at h
      split at h
      · cases h
        exact .refl _ _
      · rename_i hout
        split at h
        · cases h
        · obtain ⟨p, hp, h⟩ := bind_eq_ok.1 h
          obtain ⟨q, hq, he⟩ := map_eq_ok.1 h
          cases he
          have hl := length_le_of_result hp
          have hbelow := (readEntry_takes d row rest hp).mono fun r hr => hr.le
          have hrow : d ≤ row.indent := by
            simp at hout
            omega
          exact .cons hrow (hbelow.trans (readMapping_takes d p.2 hq))
termination_by (rows.length, 0)
decreasing_by
  · exact Prod.Lex.left _ _ (by simp)
  · exact Prod.Lex.left _ _ (by simp only [List.length_cons]; omega)

theorem readSequence_takes (d : Nat) (rows : List Row) {vs : List Value} {left : List Row}
    (h : (readSequence d rows).result = .ok (vs, left)) :
    Takes (Row.IsBelow d) rows left := by
  match rows with
  | [] =>
      rw [result_readSequence_nil] at h
      cases h
      exact .refl _ _
  | row :: rest =>
      rw [result_readSequence_cons] at h
      split at h
      · cases h
      · rename_i hin
        split at h
        · cases h
          exact .refl _ _
        · rename_i hout
          obtain ⟨p, hp, h⟩ := bind_eq_ok.1 h
          obtain ⟨q, hq, he⟩ := map_eq_ok.1 h
          cases he
          have hl := length_le_of_result hp
          obtain ⟨hd, hitem⟩ : d ≤ row.indent ∧ row.isItem = true := by simpa using hout
          have hd : row.indent = d := by omega
          have hbelow : Takes (Row.IsBelow d) rest p.2 :=
            (readSequenceItem_takes d row rest hd.ge hp).mono fun r hr => .inl hr
          exact .cons (.inr ⟨hd, hitem⟩) (hbelow.trans (readSequence_takes d p.2 hq))
termination_by (rows.length, 0)
decreasing_by
  · exact Prod.Lex.left _ _ (by simp)
  · exact Prod.Lex.left _ _ (by simp only [List.length_cons]; omega)

theorem readSequenceItem_takes (d : Nat) (row : Row) (rest : List Row)
    (hd : d ≤ row.indent) {v : Value} {left : List Row}
    (h : (readSequenceItem d row rest).result = .ok (v, left)) :
    Takes (fun r => d < r.indent) rest left := by
  have hcolumn : d < row.behindDash.indent := by
    simp only [Row.behindDash]
    omega
  rw [result_readSequenceItem] at h
  split at h
  · exact readBehind_takes d rest h
  · split at h
    · split at h
      · cases h
      · obtain ⟨p, hp, h⟩ := bind_eq_ok.1 h
        obtain ⟨q, hq, he⟩ := map_eq_ok.1 h
        cases he
        have hl := length_le_of_result hp
        have hentry := readEntry_takes row.behindDash.indent row.behindDash rest hp
        have hmapping := readMapping_takes row.behindDash.indent p.2 hq
        have hcompact := (hentry.mono fun r hr => hr.le).trans hmapping
        exact hcompact.mono fun r hr => Nat.lt_of_lt_of_le hcolumn hr
    · obtain ⟨v, -, he⟩ := map_eq_ok.1 h
      cases he
      exact .refl _ _
termination_by (rest.length, 4)
decreasing_by
  · exact Prod.Lex.right _ (by decide)
  · exact Prod.Lex.right' _ hl (by decide)
  · exact Prod.Lex.right _ (by decide)

end

/-! ## Keys -/

/-- The key that a row gives. -/
def Row.key? (r : Row) : Option String :=
  (splitKey? r.text).bind fun p => (readKey p.1).toOption

/-- The row begins an entry of a mapping at the column. -/
def Row.beginsEntry (d : Nat) (r : Row) : Bool := r.indent = d && !r.isItem

theorem key?_of_readEntry {e : String × Value}
    (h : (readEntry d row rest).result = .ok (e, left)) :
    row.key? = some e.1 := by
  rw [result_readEntry] at h
  split at h
  · cases h
  · rename_i key text hk
    obtain ⟨name, hn, h⟩ := bind_eq_ok.1 h
    have hkey : row.key? = some name := by
      rw [Row.key?, hk, Option.bind_some, Row.inline_eq_ok.1 hn]
      rfl
    rw [hkey]
    split at h
    · obtain ⟨p, -, he⟩ := map_eq_ok.1 h
      cases he
      rfl
    · obtain ⟨v, -, he⟩ := map_eq_ok.1 h
      cases he
      rfl

theorem beginsEntry_eq_false {r : Row} (h : r.IsBelow d) : r.beginsEntry d = false := by
  rcases h with h | ⟨-, h⟩
  · simp [Row.beginsEntry, Nat.ne_of_gt h]
  · simp [Row.beginsEntry, h]

/-- The keys of a mapping as it is written are those of the rows at its
column, in their order. -/
theorem readMapping_keys {d : Nat} {rows left : List Row} {es : List (String × Value)}
    (h : (readMapping d rows).result = .ok (es, left)) :
    ∃ taken, rows = taken ++ left ∧
      (taken.filter (Row.beginsEntry d)).map Row.key? = (Table.names es).map some := by
  match rows with
  | [] =>
      rw [result_readMapping_nil] at h
      cases h
      exact ⟨[], rfl, rfl⟩
  | row :: rest =>
      rw [result_readMapping_cons] at h
      split at h
      · cases h
        exact ⟨[], rfl, rfl⟩
      · rename_i hout
        split at h
        · cases h
        · rename_i hin
          obtain ⟨p, hp, h⟩ := bind_eq_ok.1 h
          obtain ⟨q, hq, he⟩ := map_eq_ok.1 h
          cases he
          have hl := length_le_of_result hp
          have hd : row.indent = d := by
            simp at hout
            omega
          have hrow : row.beginsEntry d = true := by
            simp [hd] at hout
            simp [Row.beginsEntry, hd, hout]
          obtain ⟨below, rfl, hbelow⟩ := readEntry_takes d row rest hp
          obtain ⟨taken, htaken, hkeys⟩ := readMapping_keys hq
          have hnone : below.filter (Row.beginsEntry d) = [] := by
            refine List.filter_eq_nil_iff.2 ?_
            intro r hr
            rw [beginsEntry_eq_false (hbelow r hr)]
            exact Bool.false_ne_true
          refine ⟨row :: (below ++ taken), by rw [htaken]; simp, ?_⟩
          rw [List.filter_cons_of_pos hrow, List.filter_append, hnone, List.nil_append,
            List.map_cons, hkeys, key?_of_readEntry hp]
          rfl
termination_by rows.length
decreasing_by
  simp only [List.length_cons]
  omega

end NotebookService.Metadata
