/-
# `NotebookService.Proofs.Metadata.Composed` — one declaration behind another

Two declarations that begin at the same column can be written as one.  Its entries are
those of the first one with the values of the second one where that has the key too, and
then the entries of the second one under new keys (`read_append`).

What has to be seen is that the first row of the second declaration closes everything
that the first one may have left open at its end: a key that still waits for its
value, sequences and mappings at any depth.  It stands at the column of the outermost
mapping and is no item, so by `Ends` every reader further in stops at it, and the
outermost one goes on.
-/
import NotebookService.Proofs.Metadata.Layout

namespace NotebookService.Table

variable {α : Type} {t u : List (String × α)}

/-! ## A table laid over another -/

/-- The first table with the values of the second one under the names that both have,
and then what the second one has under other names. -/
def overlay (t u : List (String × α)) : List (String × α) :=
  t.map (fun e => (e.1, (u.lookup e.1).getD e.2)) ++ u.filter fun e => e.1 ∉ names t

theorem names_overlay (t u : List (String × α)) :
    names (overlay t u) = names t ++ (names u).filter (· ∉ names t) := by
  have hu : names (u.filter fun e => e.1 ∉ names t) = (names u).filter (· ∉ names t) := by
    simp only [names, List.filter_map]
    rfl
  rw [overlay, names, List.map_append, ← names, ← names, hu, names_map fun n v =>
    (u.lookup n).getD v]

theorem lookup_filter_names (u : List (String × α)) (p : String → Bool) (name : String) :
    (u.filter fun e => p e.1).lookup name = if p name then u.lookup name else none := by
  induction u with
  | nil => simp
  | cons e u ih => grind

theorem lookup_overlay (t u : List (String × α)) (name : String) :
    (overlay t u).lookup name = (u.lookup name).or (t.lookup name) := by
  rw [overlay, List.lookup_append, lookup_map fun n v => (u.lookup n).getD v,
    lookup_filter_names u (fun n => decide (n ∉ names t))]
  cases ht : t.lookup name with
  | some v => cases u.lookup name <;> rfl
  | none =>
      have hn : name ∉ names t := by
        intro hm
        obtain ⟨e, he, rfl⟩ := List.mem_map.1 hm
        have := List.lookup_eq_none_iff.1 ht e he
        simp at this
      simp [hn]

theorem nodup_names_overlay (ht : (names t).Nodup) (hu : (names u).Nodup) :
    (names (overlay t u)).Nodup := by
  rw [names_overlay]
  refine List.nodup_append.2 ⟨ht, hu.filter _, ?_⟩
  rintro n hn m hm rfl
  simp [hn] at hm

@[simp] theorem overlay_nil (t : List (String × α)) : overlay t [] = t := by
  simp [overlay]

theorem overlay_put (ht : (names t).Nodup) (hu : (names u).Nodup) (name : String)
    (value : α) :
    overlay t (put name value u) = put name value (overlay t u) := by
  refine (eq_of_lookup_eq ?_ (nodup_names_put name value (nodup_names_overlay ht hu))
    fun other => ?_).symm
  · rw [names_put, names_overlay, names_overlay, names_put]
    by_cases h : name ∈ names t
    · by_cases h' : name ∈ names u <;> simp [h, h']
    · by_cases h' : name ∈ names u <;> simp [h, h']
  · rw [lookup_put, lookup_overlay, lookup_overlay, lookup_put]
    split <;> rfl

end NotebookService.Table

namespace NotebookService.Metadata

open NotebookService.Text

variable {d n : Nat} {ra rb tail : List Row} {es fs : List (String × Value)}

/-- A declaration with another one behind it. -/
def updated (a b : Metadata) : Metadata := ⟨Table.overlay a.entries b.entries⟩

/-! ## Collecting -/

theorem collect_concat {α : Type} (es : List (String × α)) (e : String × α) :
    collect (es ++ [e]) = Table.put e.1 e.2 (collect es) := by
  rw [collect, List.foldl_append]
  rfl

theorem nodup_names_collect {α : Type} (es : List (String × α)) :
    (Table.names (collect es)).Nodup := by
  induction es using List.reverseRecOn with
  | nil => exact List.nodup_nil
  | append_singleton es e ih =>
      rw [collect_concat]
      exact Table.nodup_names_put e.1 e.2 ih

theorem mem_of_mem_collect {α : Type} {es : List (String × α)} {e : String × α}
    (h : e ∈ collect es) : e ∈ es := by
  induction es using List.reverseRecOn with
  | nil => exact h
  | append_singleton es d ih =>
      rw [collect_concat] at h
      rcases Table.mem_of_mem_put h with rfl | h
      · exact List.mem_append_right _ (List.mem_singleton.2 rfl)
      · exact List.mem_append_left _ (ih h)

theorem lookup_collect {α : Type} (es : List (String × α)) (key : String) :
    (collect es).lookup key = es.reverse.lookup key := by
  induction es using List.reverseRecOn with
  | nil => rfl
  | append_singleton es e ih =>
      rw [collect_concat, Table.lookup_put, ih, List.reverse_concat, List.lookup_cons]
      by_cases h : key = e.1
      · rw [if_pos h, beq_iff_eq.2 h]
      · rw [if_neg h, beq_false_of_ne h]

theorem mem_names_collect {α : Type} {es : List (String × α)} {name : String} :
    name ∈ Table.names (collect es) ↔ name ∈ Table.names es := by
  induction es using List.reverseRecOn with
  | nil => rfl
  | append_singleton es e ih =>
      have hput : name ∈ Table.names (Table.put e.1 e.2 (collect es)) ↔
          name ∈ Table.names (collect es) ∨ name = e.1 := by
        rw [Table.names_put]
        split
        · rename_i hm
          exact ⟨.inl, fun h => h.elim id fun he => he ▸ hm⟩
        · rw [List.mem_append, List.mem_singleton]
      have hsplit : Table.names (es ++ [e]) = Table.names es ++ [e.1] := List.map_append
      rw [collect_concat, hput, ih, hsplit, List.mem_append, List.mem_singleton]

theorem collect_append {α : Type} (es fs : List (String × α)) :
    collect (es ++ fs) = Table.overlay (collect es) (collect fs) := by
  induction fs using List.reverseRecOn with
  | nil => rw [List.append_nil]; exact (Table.overlay_nil _).symm
  | append_singleton fs e ih =>
      rw [← List.append_assoc, collect_concat, collect_concat, ih,
        Table.overlay_put (nodup_names_collect es) (nodup_names_collect fs)]

/-! ## Rows -/

theorem placed_eq_append (tail rows : List Row) :
    placed 0 id tail rows = rows ++ tail := by
  have hid : Row.moved 0 id = id := rfl
  rw [placed, hid, List.map_id]

theorem readEntry_append (ht : Ends d tail) {row : Row} {rest left : List Row}
    {e : String × Value} (h : (readEntry d row rest).result = .ok (e, left)) :
    (readEntry d row (rest ++ tail)).result = .ok (e, left ++ tail) := by
  have hp : (readEntry d row (placed 0 id tail rest)).result =
      (readEntry d row rest).result.placed 0 id tail :=
    readEntry_placed 0 id d row rest ht
  rw [placed_eq_append, h] at hp
  rw [hp, Result.placed, placed_eq_append]

/-- A mapping that ends with its rows goes on with the rows behind them. -/
theorem readMapping_append {d : Nat} {ra tail : List Row} {es : List (String × Value)}
    (ht : Ends d tail) (h : (readMapping d ra).result = .ok (es, [])) :
    (readMapping d (ra ++ tail)).result = (readMapping d tail).result.map fun p =>
      (es ++ p.1, p.2) := by
  match ra with
  | [] =>
      rw [result_readMapping_nil] at h
      cases h
      rw [List.nil_append]
      cases (readMapping d tail).result <;> rfl
  | row :: rest =>
      rw [result_readMapping_cons] at h
      rw [List.cons_append, result_readMapping_cons]
      split at h
      · cases h
      · split at h
        · cases h
        · rename_i hend hin
          rw [if_neg hend, if_neg hin]
          cases he : (readEntry d row rest).result with
          | error r => rw [he] at h; cases h
          | ok p =>
              obtain ⟨e, left⟩ := p
              have hl := length_le_of_result he
              cases hm : (readMapping d left).result with
              | error r => simp [he, hm, Except.bind, Except.map] at h
              | ok q =>
                  obtain ⟨rest', last⟩ := q
                  simp only [he, hm, Except.bind, Except.map, Except.ok.injEq,
                    Prod.mk.injEq] at h
                  obtain ⟨rfl, rfl⟩ := h
                  have ih := readMapping_append ht hm
                  simp only [readEntry_append ht he, Except.bind, ih]
                  cases (readMapping d tail).result <;> rfl
termination_by ra.length
decreasing_by
  simp only [List.length_cons]
  omega

theorem exists_of_readRows_cons {row : Row} {rest : List Row}
    (h : readRows (row :: rest) = .ok es) :
    row.isItem = false ∧
      (readMapping row.indent (row :: rest)).result = .ok (es, []) := by
  rw [readRows_cons] at h
  split at h
  · cases h
  · rename_i hi
    refine ⟨by simpa using hi, ?_⟩
    cases hm : (readMapping row.indent (row :: rest)).result with
    | error r => rw [hm] at h; cases h
    | ok p =>
        obtain ⟨entries, left⟩ := p
        rw [hm] at h
        cases left with
        | nil => cases h; rfl
        | cons next left => cases h

theorem readRows_append (ha : readRows ra = .ok es) (hb : readRows rb = .ok fs)
    (hc : ∀ r ∈ ra.head?, ∀ s ∈ rb.head?, r.indent = s.indent) :
    readRows (ra ++ rb) = .ok (es ++ fs) := by
  cases ra with
  | nil =>
      cases ha
      exact hb
  | cons row rest =>
      cases rb with
      | nil =>
          cases hb
          rw [List.append_nil, List.append_nil, ha]
      | cons next rows =>
          have hd : row.indent = next.indent := hc row rfl next rfl
          obtain ⟨hi, ha⟩ := exists_of_readRows_cons ha
          obtain ⟨hn, hb⟩ := exists_of_readRows_cons hb
          have ht : Ends row.indent (next :: rows) := by
            rintro r ⟨⟩
            exact .inr ⟨hd.symm, hn⟩
          have hm := readMapping_append ht ha
          rw [hd, hb, ← hd] at hm
          rw [List.cons_append, readRows_cons,
            if_neg (by simp [hi]), ← List.cons_append, hm]
          rfl

/-! ## Lines -/

theorem rowsFrom_append (n : Nat) (a b : List (List Char)) :
    rowsFrom n (a ++ b) =
      (rowsFrom n a).bind fun ra => (rowsFrom (n + a.length) b).map fun rb =>
        ra ++ rb := by
  induction a generalizing n with
  | nil =>
      rw [List.nil_append, rowsFrom, List.length_nil, Nat.add_zero]
      cases rowsFrom n b <;> rfl
  | cons l a ih =>
      rw [List.cons_append, rowsFrom_cons, rowsFrom_cons, ih, List.length_cons,
        Nat.add_right_comm, Nat.add_assoc]
      cases rowOfLine n l with
      | error r => rfl
      | ok row =>
          simp only [Except.bind]
          cases rowsFrom (n + 1) a with
          | error r => rfl
          | ok ra =>
              simp only [Except.map]
              cases rowsFrom (n + (a.length + 1)) b with
              | error r => rfl
              | ok rb => simp

/-- The column at which the first line that holds something begins. -/
def column? (lines : List String) : Option Nat :=
  (lines.find? fun l => !allBlank (uncommented true none l.toList)).map fun l =>
    (l.toList.takeWhile (· = ' ')).length

theorem takeWhile_eq_of_isPrefix {p : Char → Bool} {s l : List Char} (h : s <+: l)
    (hn : ¬ ∀ c ∈ s, p c = true) :
    l.takeWhile p = s.takeWhile p := by
  obtain ⟨t, rfl⟩ := h
  rw [List.takeWhile_append, if_neg]
  intro hlength
  have hs := (List.takeWhile_prefix p).eq_of_length hlength
  exact hn fun c hc => List.mem_takeWhile_imp (hs.symm ▸ hc)

/-- A line that holds something is a row at the column of its first
character that is no space. -/
theorem indent_of_rowOfLine {l : List Char}
    (hb : ¬ allBlank (uncommented true none l) = true) {row : Option Row}
    (h : rowOfLine n l = .ok row) :
    row.map Row.indent = some (l.takeWhile (· = ' ')).length := by
  have hne : trimEnd (uncommented true none l) ≠ [] := mt trimEnd_eq_nil.1 hb
  have hn : ¬ ∀ c ∈ trimEnd (uncommented true none l), decide (c = ' ') = true := by
    intro hall
    refine hb ?_
    rw [← allBlank_trimEnd, allBlank_iff]
    intro c hc
    rw [of_decide_eq_true (hall c hc)]
    rfl
  have hp := trimEnd_prefix (uncommented true none l)
  rw [takeWhile_eq_of_isPrefix (hp.trans (uncommented_isPrefix true none l)) hn]
  rw [rowOfLine] at h
  generalize trimEnd (uncommented true none l) = content at h hne ⊢
  have hl := congrArg List.length
      (List.takeWhile_append_dropWhile (p := (· = ' ')) (l := content))
  simp only [List.isEmpty_eq_false_iff.2 hne, Bool.false_eq_true, if_false] at h
  split at h
  · cases h
  · cases h
    rw [List.length_append] at hl
    simp only [Option.map_some, Option.some.injEq]
    omega

theorem head?_indent_of_rowsFrom {lines : List String} {rows : List Row}
    (h : rowsFrom n (lines.map String.toList) = .ok rows) :
    rows.head?.map Row.indent = column? lines := by
  induction lines generalizing n rows with
  | nil => cases h; rfl
  | cons l lines ih =>
      rw [List.map_cons, rowsFrom_cons] at h
      cases hr : rowOfLine n l.toList with
      | error r => rw [hr] at h; cases h
      | ok row =>
          cases hrs : rowsFrom (n + 1) (lines.map String.toList) with
          | error r => rw [hr, hrs] at h; cases h
          | ok rest =>
              rw [hr, hrs] at h
              cases h
              rw [column?, List.find?_cons]
              cases hb : allBlank (uncommented true none l.toList) with
              | true =>
                  have hnone : rowOfLine n l.toList = .ok none := by
                    simp [rowOfLine, trimEnd_eq_nil.2 hb]
                  rw [hr] at hnone
                  cases hnone
                  exact ih hrs
              | false =>
                  have hi := indent_of_rowOfLine (by simp [hb]) hr
                  cases row with
                  | none => cases hi
                  | some row => exact hi

theorem exists_of_read {lines : List String} {entries : Metadata}
    (h : read n lines = .ok entries) :
    ∃ rows es, rowsFrom n (lines.map String.toList) = .ok rows ∧ readRows rows = .ok es ∧
      entries = ⟨collect es⟩ := by
  rw [read_eq] at h
  cases hr : rowsFrom n (lines.map String.toList) with
  | error r => rw [hr] at h; cases h
  | ok rows =>
      rw [hr] at h
      cases he : readRows rows with
      | error r => simp [Except.bind, he, Except.map] at h
      | ok es =>
          simp only [Except.bind, he, Except.map, Except.ok.injEq] at h
          exact ⟨rows, es, rfl, he, h.symm⟩

/-- Behind another one a declaration puts its values in place of those under its keys,
and its new keys at the end. -/
theorem read_append {a b : List String} {ma mb : Metadata} {n m : Nat}
    (ha : read n a = .ok ma) (hb : read m b = .ok mb)
    (hc : ∀ c ∈ column? a, ∀ d ∈ column? b, c = d) (k : Nat) :
    read k (a ++ b) = .ok (ma.updated mb) := by
  obtain ⟨ra, es, hra, hes, rfl⟩ := exists_of_read (read_renumbered ha k)
  obtain ⟨rb, fs, hrb, hfs, rfl⟩ := exists_of_read (read_renumbered hb (k + a.length))
  have hrows : rowsFrom k ((a ++ b).map String.toList) = .ok (ra ++ rb) := by
    rw [List.map_append, rowsFrom_append, hra, List.length_map, Except.bind,
      hrb, Except.map]
  have hcolumns : ∀ r ∈ ra.head?, ∀ s ∈ rb.head?, r.indent = s.indent := by
    intro r hr s hs
    refine hc _ ?_ _ ?_
    · rw [← head?_indent_of_rowsFrom hra, hr]
      rfl
    · rw [← head?_indent_of_rowsFrom hrb, hs]
      rfl
  rw [read_of_readRows hrows (readRows_append hes hfs hcolumns), collect_append]
  rfl

theorem read_entries_open :
    read 1 ["  a:", "    - x: 1", "    -", "  b:"] =
      .ok ⟨[("a", .list [.map [("x", .int 1)], .null]), ("b", .null)]⟩ := by
  have ha : IsKey "a" := ⟨by decide, rfl, rfl, by decide⟩
  have hb : IsKey "b" := ⟨by decide, rfl, rfl, by decide⟩
  have hx : IsWord "x" := ⟨by decide, rfl⟩
  have hone : IsWord "1" := ⟨by decide, rfl⟩
  have hrows : rowsFrom 1 (["  a:", "    - x: 1", "    -", "  b:"].map String.toList) =
      .ok [⟨1, 2, "a".toList ++ [':']⟩,
        ⟨2, 4, '-' :: ' ' :: ("x".toList ++ ':' :: ' ' :: ['1'])⟩, ⟨3, 4, ['-']⟩,
        ⟨4, 2, "b".toList ++ [':']⟩] := rfl
  have hinner : Outside 6 [⟨3, 4, ['-']⟩, ⟨4, 2, "b".toList ++ [':']⟩] :=
    outside_cons (by decide) _
  have hpair : Leaves (readSequenceItem 4
      ⟨2, 4, '-' :: ' ' :: ("x".toList ++ ':' :: ' ' :: ['1'])⟩ _)
      (.map [("x", .int 1)]) _ :=
    readSequenceItem_word hx (.of_isWord hone) (readMapping_outside hinner)
  have hend : Outside 4 [⟨4, 2, "b".toList ++ [':']⟩] := outside_cons (by decide) []
  have hnull : Leaves (readSequenceItem 4 ⟨3, 4, ['-']⟩ _) .null _ :=
    readSequenceItem_null rfl hend.ends
  have hitems := readSequence_item (d := 4) rfl rfl hpair
    (readSequence_item rfl rfl hnull (readSequence_outside hend))
  have hbelow := readBelow_sequence (d := 2) (by decide) rfl hitems
  have hopen : Leaves (readBelow 2 []) .null [] :=
    leaves_iff.2 (readBelow_ends (outside_nil 2).ends)
  exact read_of_readRows hrows (readRows_of_readMapping rfl
    (readMapping_entry rfl rfl (readEntry_key ha hbelow)
      (readMapping_entry rfl rfl (readEntry_key hb hopen)
        (readMapping_outside (outside_nil 2)))))

theorem read_entries_closing :
    read 1 ["  # then", "  b: 2", "  a:", "  - y", "  c: 3"] =
      .ok ⟨[("b", .int 2), ("a", .list [.str "y"]), ("c", .int 3)]⟩ := by
  have ha : IsKey "a" := ⟨by decide, rfl, rfl, by decide⟩
  have hb : IsKey "b" := ⟨by decide, rfl, rfl, by decide⟩
  have hc : IsKey "c" := ⟨by decide, rfl, rfl, by decide⟩
  have htwo : IsWord "2" := ⟨by decide, rfl⟩
  have hthree : IsWord "3" := ⟨by decide, rfl⟩
  have hy : IsWord "y" := ⟨by decide, rfl⟩
  have hrows : rowsFrom 1
      (["  # then", "  b: 2", "  a:", "  - y", "  c: 3"].map String.toList) =
      .ok [⟨2, 2, "b".toList ++ ':' :: ' ' :: ['2']⟩, ⟨3, 2, "a".toList ++ [':']⟩,
        ⟨4, 2, '-' :: ' ' :: ['y']⟩, ⟨5, 2, "c".toList ++ ':' :: ' ' :: ['3']⟩] := rfl
  have hend : Ends 2 [⟨5, 2, "c".toList ++ ':' :: ' ' :: ['3']⟩] := by
    rintro r ⟨⟩
    exact .inr ⟨rfl, rfl⟩
  have hitems : Leaves (readSequence 2 (⟨4, 2, '-' :: ' ' :: ['y']⟩ :: _)) [.str "y"] _ :=
    readSequence_item rfl rfl (readSequenceItem_legible (.of_isWord hy))
      (leaves_iff.2 (readSequence_ends hend))
  have hbelow := readBelow_sequence (Nat.le_refl 2) rfl hitems
  exact read_of_readRows hrows (readRows_of_readMapping rfl
    (readMapping_entry rfl rfl (readEntry_legible hb (.of_isWord htwo))
      (readMapping_entry rfl rfl (readEntry_key ha hbelow)
        (readMapping_entry rfl rfl (readEntry_legible hc (.of_isWord hthree))
          (readMapping_outside (outside_nil 2))))))

theorem read_append_open :
    read 1 (["  a:", "    - x: 1", "    -", "  b:"] ++ ["  # then", "  b: 2", "  a:",
      "  - y", "  c: 3"]) =
      .ok ⟨[("a", .list [.str "y"]), ("b", .int 2), ("c", .int 3)]⟩ := by
  exact read_append read_entries_open read_entries_closing (by decide) 1

end NotebookService.Metadata
