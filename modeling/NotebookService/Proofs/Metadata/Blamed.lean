/-
# `NotebookService.Proofs.Metadata.Blamed` — the line that is blamed for a fault

A declaration whose lines all begin at the margin is read line by line, and a line that
is no entry is not passed over.  It may have no colon that ends a key, a key or a value
that is not understood, or be an item where no sequence can stand.  Whichever it is, the
refusal names the line itself.

`read_wrong` says this of a wrong line among entries and lines that hold nothing.
Its number is that of the first line and one more for each line in front of it,
whatever this line holds.
-/
import NotebookService.Proofs.Metadata.Composed

namespace NotebookService.Metadata

open NotebookService.Text

variable {l s : List Char}

/-! ## Lines at the margin -/

/-- What a line holds in front of its comment. -/
def content (l : List Char) : List Char := trimEnd (uncommented true none l)

/-- A line that begins at the margin. -/
def Unindented (l : List Char) : Prop := ∀ c ∈ l.head?, isBlank c = false

/-- A key and what stands behind it, both understood.  There may be nothing behind it. -/
structure IsPair (s key text : List Char) : Prop where
  not_item : isItemText s = false
  splitKey : splitKey? s = some (key, text)
  readKey : ∃ name, readKey key = .ok name
  readInline : ∃ v, readInline text = .ok v

/-- A key at the margin with its value behind it. -/
def IsEntryLine (l : List Char) : Prop :=
  Unindented l ∧ ∃ key text, IsPair (content l) key text ∧ text ≠ []

/-- A line without a fault: it holds nothing, or a key with its value. -/
def Harmless (l : List Char) : Prop := content l = [] ∨ IsEntryLine l

/-- A line at the margin that holds something, but no key. -/
structure IsWrong (l : List Char) : Prop where
  unindented : Unindented l
  content_ne : content l ≠ []
  not_pair : ∀ key text, ¬ IsPair (content l) key text

theorem harmless_nil : Harmless [] := .inl rfl

theorem rowOfLine_of_content_eq_nil (h : content l = []) (n : Nat) :
    rowOfLine n l = .ok none := by
  rw [rowOfLine, ← content, h]
  rfl

theorem Unindented.rowOfLine_eq (h : Unindented l) (hne : content l ≠ []) (n : Nat) :
    rowOfLine n l = .ok (some ⟨n, 0, content l⟩) := by
  obtain ⟨c, t, hc⟩ := List.exists_cons_of_ne_nil hne
  have hend := trimEnd_prefix (uncommented true none l)
  have hprefix : content l <+: l := hend.trans (uncommented_isPrefix true none l)
  have hhead : l.head? = some c := by
    obtain ⟨u, hu⟩ := hprefix
    rw [← hu, hc]
    rfl
  rw [hc]
  exact rowOfLine_of_content (d := 0) (h c hhead) hc n

theorem IsPair.ne_nil {key text : List Char} (h : IsPair s key text) : s ≠ [] := by
  rintro rfl
  cases h.splitKey

/-! ## Entries at the margin -/

/-- A row at the margin that is an entry by itself. -/
structure Row.IsEntry (r : Row) : Prop where
  indent : r.indent = 0
  pair : ∃ key text, IsPair r.text key text ∧ text ≠ []

theorem Row.IsEntry.not_item {r : Row} (h : r.IsEntry) : r.isItem = false := by
  obtain ⟨key, text, hp, -⟩ := h.pair
  exact hp.not_item

theorem Row.IsEntry.readEntry_eq {r : Row} (h : r.IsEntry) (rest : List Row) :
    ∃ e, (readEntry 0 r rest).result = .ok (e, rest) := by
  obtain ⟨key, text, ⟨-, hsplit, ⟨name, hname⟩, v, hv⟩, hne⟩ := h.pair
  exact ⟨(name, v), leaves_iff.1 (readEntry_inline hsplit hname hne hv)⟩

theorem rowsFrom_harmless {ls : List (List Char)} (h : ∀ l ∈ ls, Harmless l) (n : Nat) :
    ∃ rows, rowsFrom n ls = .ok rows ∧ ∀ r ∈ rows, r.IsEntry := by
  induction ls generalizing n with
  | nil => exact ⟨[], rfl, fun r hr => absurd hr List.not_mem_nil⟩
  | cons l ls ih =>
      obtain ⟨hl, hls⟩ := List.forall_mem_cons.1 h
      obtain ⟨rows, hrows, hentries⟩ := ih hls (n + 1)
      rw [rowsFrom_cons, hrows]
      rcases hl with hnil | ⟨hunindented, key, text, hpair, hne⟩
      · rw [rowOfLine_of_content_eq_nil hnil]
        exact ⟨rows, rfl, hentries⟩
      · rw [hunindented.rowOfLine_eq hpair.ne_nil]
        exact ⟨_, rfl, List.forall_mem_cons.2 ⟨⟨rfl, key, text, hpair, hne⟩, hentries⟩⟩

theorem readMapping_entries {rows : List Row} (h : ∀ r ∈ rows, r.IsEntry)
    (tail : List Row) :
    ∃ es, (readMapping 0 (rows ++ tail)).result = (readMapping 0 tail).result.map fun p =>
      (es ++ p.1, p.2) := by
  induction rows with
  | nil =>
      refine ⟨[], ?_⟩
      rw [List.nil_append]
      cases (readMapping 0 tail).result <;> rfl
  | cons row rows ih =>
      obtain ⟨hrow, hrows⟩ := List.forall_mem_cons.1 h
      obtain ⟨es, hes⟩ := ih hrows
      obtain ⟨e, he⟩ := hrow.readEntry_eq (rows ++ tail)
      refine ⟨e :: es, ?_⟩
      rw [List.cons_append, result_readMapping_cons,
        if_neg (by simp [hrow.indent, hrow.not_item]), if_neg (by simp [hrow.indent]), he]
      simp only [Except.bind, hes]
      cases (readMapping 0 tail).result <;> rfl

theorem readRows_entries {row : Row} {rows : List Row} (h : ∀ r ∈ row :: rows, r.IsEntry)
    (tail : List Row) :
    ∃ es, readRows (row :: rows ++ tail) = (readMapping 0 tail).result.bind fun p =>
      match p.2 with
      | [] => .ok (es ++ p.1)
      | next :: _ => next.refuse .unexpectedIndentation := by
  have hrow := h row List.mem_cons_self
  obtain ⟨es, hes⟩ := readMapping_entries h tail
  refine ⟨es, ?_⟩
  rw [List.cons_append, readRows_cons, if_neg (by simp [hrow.not_item]),
    hrow.indent, ← List.cons_append, hes]
  cases (readMapping 0 tail).result <;> rfl

/-! ## A wrong line -/

theorem readInline_nil : readInline [] = .ok .null := by cbv

theorem readEntry_wrong {r : Row} (hi : r.isItem = false)
    (h : ∀ key text, ¬ IsPair r.text key text) (rest : List Row) :
    ∃ fault, (readEntry 0 r rest).result = .error ⟨r.number, fault⟩ := by
  rw [result_readEntry]
  rcases hs : splitKey? r.text with _ | ⟨key, text⟩
  · exact ⟨.keyExpected (String.ofList r.text), rfl⟩
  · rcases hk : readKey key with fault | name
    · exact ⟨fault, by simp only [hk]; rfl⟩
    · rcases hv : readInline text with fault | v
      · have hne : text ≠ [] := by
          rintro rfl
          rw [readInline_nil] at hv
          cases hv
        refine ⟨fault, ?_⟩
        simp only [hk, hv, List.isEmpty_eq_false_iff.2 hne]
        rfl
      · exact absurd ⟨hi, hs, ⟨name, hk⟩, v, hv⟩ (h key text)

/-- A row that is no entry is refused, unless it is an item behind entries: their
mapping ends in front of it, and then it is refused as well. -/
theorem readRows_wrong {rows : List Row} {r : Row} (hrows : ∀ r ∈ rows, r.IsEntry)
    (hindent : r.indent = 0) (h : ∀ key text, ¬ IsPair r.text key text)
    (rest : List Row) :
    ∃ fault, readRows (rows ++ r :: rest) = .error ⟨r.number, fault⟩ := by
  cases hi : r.isItem with
  | true =>
      have hends : (readMapping 0 (r :: rest)).result = .ok ([], r :: rest) := by
        rw [result_readMapping_cons, if_pos (by simp [hindent, hi])]
      cases rows with
      | nil => exact ⟨.listAtTop, by rw [List.nil_append, readRows_cons, if_pos hi]; rfl⟩
      | cons row rows =>
          obtain ⟨es, hes⟩ := readRows_entries hrows (r :: rest)
          exact ⟨.unexpectedIndentation, by rw [hes, hends]; rfl⟩
  | false =>
      obtain ⟨fault, hfault⟩ := readEntry_wrong hi h rest
      have hstops : (readMapping 0 (r :: rest)).result = .error ⟨r.number, fault⟩ := by
        rw [result_readMapping_cons, if_neg (by simp [hindent, hi]),
          if_neg (by simp [hindent]), hfault]
        rfl
      refine ⟨fault, ?_⟩
      cases rows with
      | nil =>
          rw [List.nil_append, readRows_cons, if_neg (by simp [hi]), hindent, hstops]
          rfl
      | cons row rows =>
          obtain ⟨es, hes⟩ := readRows_entries hrows (r :: rest)
          rw [hes, hstops]
          rfl

/-- A wrong line among lines without a fault is refused, and the refusal names it. -/
theorem read_wrong {above below : List (List Char)} {wrong : List Char}
    (habove : ∀ l ∈ above, Harmless l) (hwrong : IsWrong wrong)
    (hbelow : ∀ l ∈ below, Harmless l) (n : Nat) :
    ∃ fault, read n ((above ++ wrong :: below).map String.ofList) =
      .error ⟨n + above.length, fault⟩ := by
  obtain ⟨ra, hra, ha⟩ := rowsFrom_harmless habove n
  obtain ⟨rb, hrb, -⟩ := rowsFrom_harmless hbelow (n + above.length + 1)
  have hline := hwrong.unindented.rowOfLine_eq hwrong.content_ne (n + above.length)
  have hrows : rowsFrom n (above ++ wrong :: below) =
      .ok (ra ++ ⟨n + above.length, 0, content wrong⟩ :: rb) := by
    rw [rowsFrom_append, hra, Except.bind, rowsFrom_cons, hline, hrb]
    rfl
  have hlist : ((above ++ wrong :: below).map String.ofList).map String.toList =
      above ++ wrong :: below := by
    simp [Function.comp_def]
  obtain ⟨fault, hfault⟩ :=
    readRows_wrong (r := ⟨n + above.length, 0, content wrong⟩) ha rfl hwrong.not_pair rb
  exact ⟨fault, by rw [read_eq, hlist, hrows, Except.bind, hfault]; rfl⟩

end NotebookService.Metadata
