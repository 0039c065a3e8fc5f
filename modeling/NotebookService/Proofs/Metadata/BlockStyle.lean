/-
# `NotebookService.Proofs.Metadata.BlockStyle` — values printed as blocks are read back

A printer for values: `key: scalar` and `- scalar` on one line, a nested collection two
columns deeper below its key or its dash.  `read_blockStyle` says that reading is a left
inverse of it, for mappings of any depth and size.

The proof is an induction on the value.  What has to hold of a nested block is that its
reader stops where the block does, whatever rows come next, so long as they begin
further to the left; the two lemmas about a head, one for keys and one for dashes, are
all that the two kinds of collection do differently.
-/
import NotebookService.Proofs.Metadata.Reader
import NotebookService.Proofs.Metadata.Scalar

namespace NotebookService.Metadata

open NotebookService.Text

/-! ## Printing -/

/-- A value that is printed on the line of its key or its dash. -/
def Value.isInline : Value → Bool
  | .list (_ :: _) | .map (_ :: _) => false
  | _ => true

/-- The text of such a value. -/
def inlineText : Value → List Char
  | .null => ['~']
  | .bool b => boolText b
  | .int i => Decimal.integerText i
  | .float x => (Value.floatText x).toList
  | .str s => '"' :: (s.toList ++ ['"'])
  | .list _ => ['[', ']']
  | .map _ => ['{', '}']

/-- The lines of a value behind a head at a column, given the lines of its block. -/
def headed (d : Nat) (head : List Char) (v : Value) (block : List (Nat × List Char)) :
    List (Nat × List Char) :=
  if v.isInline then [(d, head ++ ' ' :: inlineText v)] else (d, head) :: block

mutual

/-- The lines of a block, each with its column. -/
def blockLines (d : Nat) : Value → List (Nat × List Char)
  | .list vs => itemLines d vs
  | .map es => entryLines d es
  | _ => []

def itemLines (d : Nat) : List Value → List (Nat × List Char)
  | [] => []
  | v :: vs => headed d ['-'] v (blockLines (d + 2) v) ++ itemLines d vs

def entryLines (d : Nat) : List (String × Value) → List (Nat × List Char)
  | [] => []
  | (key, v) :: es =>
    headed d (key.toList ++ [':']) v (blockLines (d + 2) v) ++ entryLines d es

end

/-- A mapping as declaration lines. -/
def blockStyle (es : List (String × Value)) : List String :=
  (entryLines 0 es).map fun l => String.ofList (List.replicate l.1 ' ' ++ l.2)

/-! ## What can be printed -/

/-- The values that have a printed form: no floats, strings that need no escapes, and
keys that are keys as they stand, each once. -/
inductive Printable : Value → Prop where
  | null : Printable .null
  | bool (b : Bool) : Printable (.bool b)
  | int {i : Int} (h : isInt64 i = true) : Printable (.int i)
  | str {s : String} (hq : '"' ∉ s.toList) (hb : '\\' ∉ s.toList) : Printable (.str s)
  | list {vs : List Value} (h : ∀ v ∈ vs, Printable v) : Printable (.list vs)
  | map {es : List (String × Value)} (hk : ∀ e ∈ es, IsKey e.1)
      (hd : (Table.names es).Nodup)
      (h : ∀ e ∈ es, Printable e.2) : Printable (.map es)

theorem Printable.legible {v : Value} (h : Printable v) (hi : v.isInline = true) :
    Legible v (inlineText v) := by
  cases h with
  | null => exact .null
  | bool b => exact .bool b
  | int h => exact .int h
  | @str s hq hb =>
      have hs := Legible.doubleQuoted hq hb
      rwa [String.ofList_toList] at hs
  | @list vs h =>
      cases vs with
      | nil => exact .emptyList
      | cons v vs => cases hi
  | @map es hk hd h =>
      cases es with
      | nil => exact .emptyMap
      | cons e es => cases hi

/-! ## The printed lines -/

variable {v : Value} {head : List Char} {block : List (Nat × List Char)} {d n : Nat}
  {rest : List Row}

theorem exists_headed (d : Nat) (head : List Char) (v : Value)
    (block : List (Nat × List Char)) :
    ∃ s ls, headed d head v block = (d, s) :: ls := by
  unfold headed
  split
  · exact ⟨_, _, rfl⟩
  · exact ⟨_, _, rfl⟩

theorem itemLines_eq_flatMap (d : Nat) (vs : List Value) :
    itemLines d vs = vs.flatMap fun v => headed d ['-'] v (blockLines (d + 2) v) := by
  induction vs with
  | nil => rw [itemLines, List.flatMap_nil]
  | cons v vs ih => rw [itemLines, ih, List.flatMap_cons]

theorem entryLines_eq_flatMap (d : Nat) (es : List (String × Value)) :
    entryLines d es = es.flatMap fun e =>
      headed d (e.1.toList ++ [':']) e.2 (blockLines (d + 2) e.2) := by
  induction es with
  | nil => rw [entryLines, List.flatMap_nil]
  | cons e es ih => rw [entryLines, ih, List.flatMap_cons]

theorem rowText_of_mem_headed (hp : Printable v) (hh : RowText head) (hc : NoComment head)
    (hb : ∀ l ∈ block, RowText l.2) {l : Nat × List Char}
    (hl : l ∈ headed d head v block) :
    RowText l.2 := by
  unfold headed at hl
  split at hl
  · rename_i hi
    rw [List.mem_singleton.1 hl]
    exact hh.append_space hc (hp.legible hi).toRowText
  · rcases List.mem_cons.1 hl with rfl | hl
    · exact hh
    · exact hb l hl

theorem rowText_of_mem_blockLines (h : Printable v) (d : Nat) :
    ∀ l ∈ blockLines d v, RowText l.2 := by
  induction h generalizing d with
  | list h ih =>
      intro l hl
      rw [blockLines, itemLines_eq_flatMap] at hl
      obtain ⟨v, hv, hl⟩ := List.mem_flatMap.1 hl
      exact rowText_of_mem_headed (h v hv) rowText_dash noComment_dash
        (ih v hv (d + 2)) hl
  | map hk _ h ih =>
      intro l hl
      rw [blockLines, entryLines_eq_flatMap] at hl
      obtain ⟨e, he, hl⟩ := List.mem_flatMap.1 hl
      exact rowText_of_mem_headed (h e he) (hk e he).isWord.rowText
        (hk e he).isWord.noComment (ih e he (d + 2)) hl
  | _ =>
      intro l hl
      simp [blockLines] at hl

/-! ## Reading a block back -/

/-- The value's block, if it has one, is read as the value and no further. -/
def ReadsBack (v : Value) : Prop :=
  v.isInline = false → ∀ (d n : Nat) (rest : List Row), Outside d rest →
    Leaves (readBlock d (rowsOf n (blockLines d v) ++ rest)) v rest

theorem exists_blockLines (h : v.isInline = false) (d : Nat) :
    ∃ s ls, blockLines d v = (d, s) :: ls := by
  match v with
  | .list (v :: vs) =>
      obtain ⟨s, ls, hs⟩ := exists_headed d ['-'] v (blockLines (d + 2) v)
      exact ⟨s, ls ++ itemLines d vs, by rw [blockLines, itemLines, hs, List.cons_append]⟩
  | .map ((key, v) :: es) =>
      obtain ⟨s, ls, hs⟩ := exists_headed d (key.toList ++ [':']) v (blockLines (d + 2) v)
      exact ⟨s, ls ++ entryLines d
        es, by rw [blockLines, entryLines, hs, List.cons_append]⟩

theorem outside_itemLines (ho : Outside d rest) (vs : List Value) :
    Outside (d + 2) (rowsOf n (itemLines d vs) ++ rest) := by
  refine outside_rowsOf ?_ (ho.mono (by omega))
  cases vs with
  | nil => simp [itemLines]
  | cons v vs =>
      obtain ⟨s, ls, hs⟩ := exists_headed d ['-'] v (blockLines (d + 2) v)
      rw [itemLines, hs]
      rintro l ⟨⟩
      exact Nat.lt_add_of_pos_right (by decide)

theorem outside_entryLines (ho : Outside d rest) (es : List (String × Value)) :
    Outside (d + 2) (rowsOf n (entryLines d es) ++ rest) := by
  refine outside_rowsOf ?_ (ho.mono (by omega))
  cases es with
  | nil => simp [entryLines]
  | cons e es =>
      obtain ⟨s, ls, hs⟩ :=
        exists_headed d (e.1.toList ++ [':']) e.2 (blockLines (d + 2) e.2)
      rw [entryLines, hs]
      rintro l ⟨⟩
      exact Nat.lt_add_of_pos_right (by decide)

theorem rowsOf_headed (n d : Nat) (head : List Char) (v : Value)
    (block : List (Nat × List Char)) :
    rowsOf n (headed d head v block) =
      if v.isInline then [⟨n, d, head ++ ' ' :: inlineText v⟩]
      else ⟨n, d, head⟩ :: rowsOf (n + 1) block := by
  unfold headed
  split <;> rfl

theorem exists_readSequenceItem (hp : Printable v) (hr : ReadsBack v)
    (ho : Outside (d + 2) rest) :
    ∃ row rows, rowsOf n (headed d ['-'] v (blockLines (d + 2) v)) = row :: rows ∧
      row.indent = d ∧ row.isItem = true ∧
      Leaves (readSequenceItem d row (rows ++ rest)) v rest := by
  rw [rowsOf_headed]
  cases hi : v.isInline with
  | true =>
      have hl := hp.legible hi
      exact ⟨_, _, rfl, rfl, rfl, readSequenceItem_legible hl⟩
  | false =>
      obtain ⟨s, ls, hs⟩ := exists_blockLines hi (d + 2)
      have hb := hr hi (d + 2) (n + 1) rest ho
      refine ⟨_, _, rfl, rfl, rfl, ?_⟩
      rw [hs, rowsOf, List.cons_append] at hb ⊢
      exact readSequenceItem_block rfl (Nat.lt_add_of_pos_right (by decide)) hb

theorem exists_readEntry {name : String} (hk : IsKey name) (hp : Printable v)
    (hr : ReadsBack v) (ho : Outside (d + 2) rest) :
    ∃ row rows, rowsOf n (headed d (name.toList ++ [':']) v (blockLines (d + 2) v)) =
      row :: rows ∧
      row.indent = d ∧ row.isItem = false ∧
        Leaves (readEntry d row (rows ++ rest)) (name, v) rest := by
  rw [rowsOf_headed]
  cases hi : v.isInline with
  | true =>
      have hl := hp.legible hi
      have ht : (name.toList ++ [':']) ++ ' ' :: inlineText v =
          name.toList ++ ':' :: ' ' :: inlineText v := by
        simp
      refine ⟨_, _, rfl, rfl, ?_, ?_⟩
      · rw [ht]
        exact hk.isWord.isItem_append n d _
      · rw [ht]
        exact readEntry_legible hk hl
  | false =>
      obtain ⟨s, ls, hs⟩ := exists_blockLines hi (d + 2)
      have hb := hr hi (d + 2) (n + 1) rest ho
      refine ⟨_, _, rfl, rfl, hk.isWord.isItem_append n d _, ?_⟩
      rw [hs, rowsOf, List.cons_append] at hb ⊢
      exact readEntry_key hk (readBelow_block (Nat.lt_add_of_pos_right (by decide)) hb)

theorem readSequence_itemLines {vs : List Value} (hp : ∀ v ∈ vs, Printable v)
    (hr : ∀ v ∈ vs, ReadsBack v) (ho : Outside d rest) :
    Leaves (readSequence d (rowsOf n (itemLines d vs) ++ rest)) vs rest := by
  induction vs generalizing n with
  | nil => exact readSequence_outside ho
  | cons v vs ih =>
      rw [itemLines, rowsOf_append, List.append_assoc]
      obtain ⟨row, rows, hrow, hd, hi, hl⟩ := exists_readSequenceItem (n := n)
        (hp v List.mem_cons_self) (hr v List.mem_cons_self) (outside_itemLines ho vs)
      rw [hrow]
      refine readSequence_item hd hi hl (ih ?_ ?_)
      · intro w hw
        exact hp w (List.mem_cons_of_mem v hw)
      · intro w hw
        exact hr w (List.mem_cons_of_mem v hw)

theorem readMapping_entryLines {es : List (String × Value)} (hk : ∀ e ∈ es, IsKey e.1)
    (hp : ∀ e ∈ es, Printable e.2) (hr : ∀ e ∈ es, ReadsBack e.2) (ho : Outside d rest) :
    Leaves (readMapping d (rowsOf n (entryLines d es) ++ rest)) es rest := by
  induction es generalizing n with
  | nil => exact readMapping_outside ho
  | cons e es ih =>
      rw [entryLines, rowsOf_append, List.append_assoc]
      obtain ⟨row, rows, hrow, hd, hi, hl⟩ :=
        exists_readEntry (n := n) (hk e List.mem_cons_self)
        (hp e List.mem_cons_self) (hr e List.mem_cons_self) (outside_entryLines ho es)
      rw [hrow]
      refine readMapping_entry hd hi hl (ih ?_ ?_ ?_)
      · intro f hf
        exact hk f (List.mem_cons_of_mem e hf)
      · intro f hf
        exact hp f (List.mem_cons_of_mem e hf)
      · intro f hf
        exact hr f (List.mem_cons_of_mem e hf)

theorem Printable.readsBack (h : Printable v) : ReadsBack v := by
  induction h with
  | @list vs h ih =>
      intro hi d n rest ho
      have hs := readSequence_itemLines (n := n) h ih ho
      cases vs with
      | nil => cases hi
      | cons v vs =>
          obtain ⟨row, rows, hrow, -, hitem, -⟩ := exists_readSequenceItem (n := n)
            (h v List.mem_cons_self) (ih v List.mem_cons_self) (outside_nil (d + 2))
          rw [blockLines]
          rw [itemLines, rowsOf_append, hrow] at hs ⊢
          exact readBlock_sequence hitem hs
  | @map es hk hd h ih =>
      intro hi d n rest ho
      have hm := readMapping_entryLines (n := n) hk h ih ho
      cases es with
      | nil => cases hi
      | cons e es =>
          obtain ⟨row, rows, hrow, -, hitem, -⟩ :=
            exists_readEntry (n := n) (hk e List.mem_cons_self)
            (h e List.mem_cons_self) (ih e List.mem_cons_self) (outside_nil (d + 2))
          rw [blockLines]
          rw [entryLines, rowsOf_append, hrow] at hm ⊢
          have hb := readBlock_mapping hitem hm
          rwa [collect_eq_self hd] at hb
  | _ =>
      rintro ⟨⟩

/-- Reading gives back what was printed: the same keys in the same order with the same
values, at every depth. -/
theorem read_blockStyle {es : List (String × Value)} (hne : es ≠ [])
    (h : Printable (.map es)) (firstLine : Nat) :
    read firstLine (blockStyle es) = .ok ⟨es⟩ := by
  have hlines : (blockStyle es).map String.toList =
      (entryLines 0 es).map fun l => List.replicate l.1 ' ' ++ l.2 := by
    simp [blockStyle, Function.comp_def]
  have hrows : rowsFrom firstLine ((blockStyle es).map String.toList) =
      .ok (rowsOf firstLine (entryLines 0 es)) := by
    rw [hlines]
    exact rowsFrom_spaces (rowText_of_mem_blockLines h 0) firstLine
  cases h with
  | map hk hd h =>
      have hr := fun e he => (h e he).readsBack
      have hm := readMapping_entryLines (n := firstLine) hk h hr (outside_nil 0)
      obtain ⟨e, es, rfl⟩ := List.exists_cons_of_ne_nil hne
      obtain ⟨row, rows, hrow, hindent, hitem, -⟩ :=
        exists_readEntry (n := firstLine) (d := 0)
        (hk e List.mem_cons_self) (h e List.mem_cons_self) (hr e List.mem_cons_self)
        (outside_nil 2)
      have hread : readRows (rowsOf firstLine (entryLines 0 (e :: es))) =
          .ok (e :: es) := by
        rw [entryLines, rowsOf_append, hrow, List.append_nil] at hm
        rw [entryLines, rowsOf_append, hrow]
        exact readRows_of_readMapping hitem (hindent ▸ hm)
      rw [read_of_readRows hrows hread, collect_eq_self hd]

theorem read_blockStyle_nested :
    read 1 ["a:", "  - -5", "  -", "    b: \"x # y\"", "  - []", "c: ~"] =
      .ok ⟨[("a", .list [.int (-5), .map [("b", .str "x # y")], .list []]),
        ("c", .null)]⟩ := by
  have ha : IsKey "a" := ⟨by decide, rfl, rfl, by decide⟩
  have hb : IsKey "b" := ⟨by decide, rfl, rfl, by decide⟩
  have hc : IsKey "c" := ⟨by decide, rfl, rfl, by decide⟩
  have hstr : Printable (.str "x # y") := .str (by decide) (by decide)
  have hmap : Printable (.map [("b", .str "x # y")]) :=
    .map (by simpa using hb) (by decide) (by simpa using hstr)
  have hint : Printable (.int (-5)) := .int (by decide)
  have hempty : Printable (.list []) := .list (by simp)
  have hlist : Printable (.list [.int (-5), .map [("b", .str "x # y")], .list []]) :=
    .list (by simpa using ⟨hint, hmap, hempty⟩)
  have hprint : Printable (.map
      [("a", .list [.int (-5), .map [("b", .str "x # y")], .list []]), ("c", .null)]) :=
    .map (by simpa using ⟨ha, hc⟩) (by decide) (by simpa using ⟨hlist, .null⟩)
  exact read_blockStyle (by simp) hprint 1

end NotebookService.Metadata
