/-
# `NotebookService.Proofs.Field.Spellings` — every spelling is the same list

A field list can stand behind its key: as one quoted string, as a flow sequence of pairs
or as a flow mapping.  Or it can stand below: as a mapping from names to types, as a
sequence of pairs, or as a sequence of texts.  The six are read along different paths
and become three kinds of values.  `spellings_agree` says that all of them are read
without a fault and declare the same fields, in the same order, with nothing to remark.

What is written behind a key or a dash is legible, and what is written below a key is
read row by row.  Each spelling is put together from these.
-/
import NotebookService.Proofs.Field.Written

namespace NotebookService

open NotebookService.Text NotebookService.Metadata

/-- The ways to write a field list behind a key; those that have a block
choose its column. -/
inductive Spelling where
  /-- `k: "a: T, b: U?"` -/
  | quoted
  /-- `k: [a: T, b: U?]` -/
  | flowSequence
  /-- `k: {a: T, b: U?}` -/
  | flowMapping
  /-- Lines `a: T`, deeper than their key by the number and one more. -/
  | blockMapping (depth : Nat)
  /-- Items `- a: T`. -/
  | blockPairs (column : Nat)
  /-- Items `- a:T`. -/
  | blockTexts (column : Nat)
  deriving DecidableEq, Repr

namespace Spelling

open WrittenField

/-- The fields one after the other. -/
def commaText (fs : List WrittenField) : List Char :=
  joined (fs.map fun f => f.text [' '])

/-- Each line of a field list under a key, with its column. -/
def rows (sp : Spelling) (key : String) (fs : List WrittenField) :
    List (Nat × List Char) :=
  match sp with
  | quoted => [(0, key.toList ++ ':' :: ' ' :: '"' :: (commaText fs ++ ['"']))]
  | flowSequence => [(0, key.toList ++ ':' :: ' ' :: '[' :: (commaText fs ++ [']']))]
  | flowMapping => [(0, key.toList ++ ':' :: ' ' :: '{' :: (commaText fs ++ ['}']))]
  | blockMapping depth =>
    (0, key.toList ++ [':']) :: fs.map fun f => (depth + 1, f.text [' '])
  | blockPairs column =>
    (0, key.toList ++ [':']) :: fs.map fun f => (column, '-' :: ' ' :: f.text [' '])
  | blockTexts column =>
    (0, key.toList ++ [':']) :: fs.map fun f => (column, '-' :: ' ' :: f.text [])

/-- A field list as declaration lines. -/
def lines (sp : Spelling) (key : String) (fs : List WrittenField) : List String :=
  (sp.rows key fs).map fun l => String.ofList (List.replicate l.1 ' ' ++ l.2)

/-- What the spelling is read as. -/
def value (sp : Spelling) (fs : List WrittenField) : Value :=
  match sp with
  | quoted => .str (String.ofList (commaText fs))
  | flowMapping | blockMapping _ => .map (entries fs)
  | flowSequence | blockPairs _ => .list (fs.map fun f => .map (entries [f]))
  | blockTexts _ => .list (fs.map fun f => .str (String.ofList (f.text [])))

/-- Each field under the key that its name is taken for. -/
def keyedEntries (fs : List WrittenField) : List (String × Value) :=
  fs.map fun f => (keyText f.name, .str (String.ofList f.typeText))

/-- What the spelling of plain fields is read as. -/
def readAs (sp : Spelling) (fs : List WrittenField) : Value :=
  match sp with
  | quoted => .str (String.ofList (commaText fs))
  | flowMapping => .map (keyedEntries fs)
  | blockMapping _ => .map (collect (keyedEntries fs))
  | flowSequence | blockPairs _ => .list (fs.map fun f => .map (keyedEntries [f]))
  | blockTexts _ => .list (fs.map fun f => .str (String.ofList (f.text [])))

/-- What a type may not hold where the spelling puts it.  One line has all the fields,
which are told apart by commas, and a string is read up to its end. -/
def Carries (sp : Spelling) (f : WrittenField) : Prop :=
  match sp with
  | quoted => IsWhole f.typeText ∧ ∀ c ∈ f.text [' '], c ≠ '"' ∧ c ≠ '\\'
  | flowSequence | flowMapping => IsWhole f.typeText ∧ PassedOver f.typeText
  | blockMapping _ | blockPairs _ | blockTexts _ => True

variable {fs : List WrittenField} {key : String} {d n : Nat} {rest : List Row}

/-! ## Behind the key -/

theorem legible_quoted (h : ∀ f ∈ fs, quoted.Carries f) :
    Legible (quoted.readAs fs) ('"' :: (commaText fs ++ ['"'])) := by
  have hc : ∀ c ∈ commaText fs, c ≠ '"' ∧ c ≠ '\\' := by
    intro c hc
    rcases mem_joined hc with rfl | rfl | ⟨p, hp, hc⟩
    · decide
    · decide
    · obtain ⟨f, hf, rfl⟩ := List.mem_map.1 hp
      exact (h f hf).2 c hc
  exact .doubleQuoted (fun hq => (hc _ hq).1 rfl) (fun hb => (hc _ hb).2 rfl)

theorem standsAlone_of_mem (h : ∀ f ∈ fs, f.Plain)
    (hc : ∀ f ∈ fs, IsWhole f.typeText ∧ PassedOver f.typeText) :
    ∀ p ∈ fs.map fun f => f.text [' '], StandsAlone p := by
  intro p hp
  obtain ⟨f, hf, rfl⟩ := List.mem_map.1 hp
  exact (h f hf).standsAlone_text (hc f hf).1 (hc f hf).2

theorem legible_flowSequence (hne : fs ≠ []) (h : ∀ f ∈ fs, f.Plain)
    (hc : ∀ f ∈ fs, flowSequence.Carries f) :
    Legible (flowSequence.readAs fs) ('[' :: (commaText fs ++ [']'])) := by
  refine .flowSequence (by simpa using hne) (standsAlone_of_mem h hc) ?_
  exact readItems_map fun f hf =>
    readItem_append (h f hf).name.toIsWord (h f hf).legible_typeText

theorem legible_flowMapping (hne : fs ≠ []) (h : ∀ f ∈ fs, f.Plain)
    (hc : ∀ f ∈ fs, flowMapping.Carries f) :
    Legible (flowMapping.readAs fs) ('{' :: (commaText fs ++ ['}'])) := by
  refine .flowMapping (by simpa using hne) (standsAlone_of_mem h hc) ?_
  exact readPairs_map fun f hf =>
    readPair_append (h f hf).name.toIsWord (h f hf).legible_typeText

/-! ## Below the key -/

theorem readMapping_texts (h : ∀ f ∈ fs, f.Plain) (ho : Outside d rest) :
    Leaves (readMapping d (rowsOf n (fs.map fun f => (d, f.text [' '])) ++ rest))
      (keyedEntries fs) rest := by
  induction fs generalizing n with
  | nil => exact readMapping_outside ho
  | cons f fs ih =>
      obtain ⟨hf, hfs⟩ := List.forall_mem_cons.1 h
      have hr := ih (n := n + 1) hfs
      exact readMapping_entry rfl (hf.name.isItem_append n d _)
        (readEntry_word hf.name.toIsWord hf.legible_typeText) hr

theorem readSequence_items {text : WrittenField → List Char} {item : WrittenField → Value}
    (h : ∀ f ∈ fs, ∀ n rest, Outside (d + 1) rest →
      Leaves (readSequenceItem d ⟨n, d, '-' :: ' ' :: text f⟩ rest) (item f) rest)
    (ho : Outside d rest) :
    Leaves (readSequence d (rowsOf n (fs.map fun f => (d, '-' :: ' ' :: text f)) ++ rest))
      (fs.map item)
      rest := by
  induction fs generalizing n with
  | nil => exact readSequence_outside ho
  | cons f fs ih =>
      obtain ⟨hf, hfs⟩ := List.forall_mem_cons.1 h
      have hr := ih (n := n + 1) hfs
      have hn : Outside (d + 1)
          (rowsOf (n + 1) (fs.map fun f => (d, '-' :: ' ' :: text f)) ++ rest) := by
        refine outside_rowsOf ?_ (ho.mono (Nat.le_succ d))
        intro l hl
        obtain ⟨g, -, rfl⟩ := List.mem_map.1 (List.mem_of_mem_head? hl)
        exact Nat.lt_succ_self d
      exact readSequence_item rfl rfl (hf n _ hn) hr

theorem readSequenceItem_pair {f : WrittenField} (h : f.Plain)
    (ho : Outside (d + 1) rest) :
    Leaves (readSequenceItem d ⟨n, d, '-' :: ' ' :: f.text [' ']⟩ rest)
      (.map (keyedEntries [f])) rest :=
  readSequenceItem_word h.name.toIsWord h.legible_typeText
    (readMapping_outside (ho.mono (Nat.le_succ _)))

/-! ## Lines -/

theorem rowText_of_mem_rows (hk : IsKey key) (hne : fs ≠ []) (h : ∀ f ∈ fs, f.Plain)
    (sp : Spelling) (hc : ∀ f ∈ fs, sp.Carries f) :
    ∀ l ∈ sp.rows key fs, RowText l.2 := by
  have hinline : ∀ {v : Value} {s : List Char}, Legible v s →
      RowText (key.toList ++ ':' :: ' ' :: s) := by
    intro v s hv
    have ht := hk.isWord.rowText.append_space hk.isWord.noComment hv.toRowText
    rwa [List.append_assoc] at ht
  have hitem : ∀ {s : List Char}, RowText s → RowText ('-' :: ' ' :: s) := fun hs =>
    rowText_dash.append_space noComment_dash hs
  have hbelow : ∀ {line : WrittenField → Nat × List Char},
    (∀ f ∈ fs, RowText (line f).2) →
      ∀ l ∈ (0, key.toList ++ [':']) :: fs.map line, RowText l.2 := by
    intro line hline l hl
    rcases List.mem_cons.1 hl with rfl | hl
    · exact hk.isWord.rowText
    · obtain ⟨f, hf, rfl⟩ := List.mem_map.1 hl
      exact hline f hf
  cases sp with
  | quoted => simpa [rows] using hinline (legible_quoted hc)
  | flowSequence => simpa [rows] using hinline (legible_flowSequence hne h hc)
  | flowMapping => simpa [rows] using hinline (legible_flowMapping hne h hc)
  | blockMapping depth => exact hbelow fun f hf => (h f hf).rowText_spaced
  | blockPairs column => exact hbelow fun f hf => hitem (h f hf).rowText_spaced
  | blockTexts column => exact hbelow fun f hf => hitem (h f hf).rowText_joined

theorem readMapping_rows (hk : IsKey key) (hne : fs ≠ []) (h : ∀ f ∈ fs, f.Plain)
    (sp : Spelling) (hc : ∀ f ∈ fs, sp.Carries f) (n : Nat) :
    Leaves (readMapping 0 (rowsOf n (sp.rows key fs))) [(key, sp.readAs fs)] [] := by
  have hend : Leaves (readMapping 0 []) [] [] := readMapping_outside (outside_nil 0)
  have hinline : ∀ {v : Value} {s : List Char}, Legible v s →
      Leaves (readMapping 0 (rowsOf n [(0, key.toList ++ ':' :: ' ' :: s)])) [(key, v)]
      [] := fun hv =>
    readMapping_entry rfl (hk.isWord.isItem_append n 0 _) (readEntry_legible hk hv) hend
  have hbelow : ∀ {v : Value} {ls : List (Nat × List Char)},
    Leaves (readBelow 0 (rowsOf (n + 1) ls)) v [] →
      Leaves (readMapping 0 (rowsOf n ((0, key.toList ++ [':']) :: ls))) [(key, v)] [] :=
        fun hv =>
    readMapping_entry rfl (hk.isWord.isItem_append n 0 _)
      (readEntry_key hk hv) hend
  obtain ⟨f, fs, rfl⟩ := List.exists_cons_of_ne_nil hne
  have hf := h f List.mem_cons_self
  cases sp with
  | quoted => exact hinline (legible_quoted hc)
  | flowSequence => exact hinline (legible_flowSequence hne h hc)
  | flowMapping => exact hinline (legible_flowMapping hne h hc)
  | blockMapping depth =>
      refine hbelow (readBelow_block (Nat.zero_lt_succ depth) ?_)
      have hm := readMapping_texts (n := n + 1) h (outside_nil (depth + 1))
      rw [List.append_nil] at hm
      exact readBlock_mapping (hf.name.isItem_append _ _ _) hm
  | blockPairs column =>
      refine hbelow (readBelow_sequence (Nat.zero_le column) rfl ?_)
      have hs := readSequence_items (n := n + 1)
        (fun g hg _ _ ho => readSequenceItem_pair (h g hg) ho) (outside_nil column)
      rwa [List.append_nil] at hs
  | blockTexts column =>
      refine hbelow (readBelow_sequence (Nat.zero_le column) rfl ?_)
      have hs := readSequence_items (n := n + 1)
        (fun g hg _ _ _ => readSequenceItem_legible (h g hg).legible_text)
        (outside_nil column)
      rwa [List.append_nil] at hs

theorem read_plain (hk : IsKey key) (hne : fs ≠ []) (h : ∀ f ∈ fs, f.Plain)
    (sp : Spelling) (hc : ∀ f ∈ fs, sp.Carries f) (firstLine : Nat) :
    read firstLine (sp.lines key fs) = .ok ⟨[(key, sp.readAs fs)]⟩ := by
  have hlines : (sp.lines key fs).map String.toList =
      (sp.rows key fs).map fun l => List.replicate l.1 ' ' ++ l.2 := by
    simp [lines, Function.comp_def]
  have hrows : rowsFrom firstLine ((sp.lines key fs).map String.toList) =
      .ok (rowsOf firstLine (sp.rows key fs)) := by
    rw [hlines]
    exact rowsFrom_spaces (rowText_of_mem_rows hk hne h sp hc) firstLine
  have hm := readMapping_rows hk hne h sp hc firstLine
  have hread : readRows (rowsOf firstLine (sp.rows key fs)) =
      .ok [(key, sp.readAs fs)] := by
    cases sp <;> exact readRows_of_readMapping (hk.isWord.isItem_append _ _ _) hm
  rw [read_of_readRows hrows hread]
  rfl

theorem carries_of_legal {f : WrittenField} (h : f.Legal) (sp : Spelling) :
    sp.Carries f := by
  cases sp with
  | quoted => exact ⟨h.isWhole_typeText, fun c hc => h.not_mem_text hc⟩
  | flowSequence | flowMapping =>
      exact ⟨h.isWhole_typeText, h.noComment_typeText.passedOver⟩
  | blockMapping | blockPairs | blockTexts => trivial

theorem keyedEntries_of_legal (h : ∀ f ∈ fs, f.Legal) : keyedEntries fs = entries fs := by
  refine List.map_congr_left ?_
  intro f hf
  rw [(h f hf).name.keyText_eq]

theorem readAs_of_allLegal (h : AllLegal fs) (sp : Spelling) :
    sp.readAs fs = sp.value fs := by
  have hall := keyedEntries_of_legal h.legal
  have hone : fs.map (fun f => Value.map (keyedEntries [f])) = fs.map fun f =>
      .map (entries [f]) := by
    refine List.map_congr_left ?_
    intro f hf
    rw [keyedEntries_of_legal (by simpa using h.legal f hf)]
  have hnames : (Table.names (entries fs)).Nodup := by
    simpa [WrittenField.entries, Table.names, Function.comp_def] using h.nodup
  cases sp with
  | quoted => rfl
  | flowSequence => exact congrArg Value.list hone
  | flowMapping => exact congrArg Value.map hall
  | blockMapping depth =>
      exact congrArg Value.map ((congrArg collect hall).trans (collect_eq_self hnames))
  | blockPairs column => exact congrArg Value.list hone
  | blockTexts column => rfl

theorem read_lines (hk : IsKey key) (h : AllLegal fs) (sp : Spelling) (firstLine : Nat) :
    read firstLine (sp.lines key fs) = .ok ⟨[(key, sp.value fs)]⟩ := by
  have hread := read_plain hk h.ne_nil (fun f hf => (h.legal f hf).isPlain) sp
    (fun f hf => carries_of_legal (h.legal f hf) sp) firstLine
  rwa [readAs_of_allLegal h] at hread

/-! ## Fields -/

theorem ofValue_value (h : AllLegal fs) (sp : Spelling) :
    Field.ofValue (sp.value fs) = pure (fs.map WrittenField.field) := by
  cases sp with
  | quoted => exact ofValue_joined h
  | flowSequence => exact ofItems_map fun f hf => ofItem_pair (h.legal f hf)
  | flowMapping => exact ofEntries_entries h.legal
  | blockMapping depth => exact ofEntries_entries h.legal
  | blockPairs column => exact ofItems_map fun f hf => ofItem_pair (h.legal f hf)
  | blockTexts column => exact ofItems_map fun f hf => ofItem_text (h.legal f hf)

/-- However a field list is spelled, it is read without a fault and is the list of the
fields that were written, with nothing to remark. -/
theorem spellings_agree (hk : IsKey key) (h : AllLegal fs) (sp : Spelling)
    (firstLine : Nat) :
    ∃ v, read firstLine (sp.lines key fs) = .ok ⟨[(key, v)]⟩ ∧
      Field.ofValue v = pure (fs.map WrittenField.field) :=
  ⟨sp.value fs, read_lines hk h sp firstLine, ofValue_value h sp⟩

theorem spellings_agree_pairs :
    ∃ v, read 1 ["k:", "  - a: Dict[str, int]?", "  - b: T!", "  - c: Tuple[T, U]"] =
      .ok ⟨[("k", v)]⟩ ∧
      Field.ofValue v = pure [⟨"a", "Dict[str, int]", true⟩, ⟨"b", "T", false⟩,
        ⟨"c", "Tuple[T, U]", false⟩] := by
  have hk : IsKey "k" := ⟨by decide, rfl, rfl, by decide⟩
  have ha : Legal ⟨"a", "Dict[str, int]", some .optional⟩ :=
    ⟨⟨by decide, rfl, rfl, by decide⟩, rfl, rfl,
      rfl, by simp [reserved], by simp, by decide⟩
  have hb : Legal ⟨"b", "T", some .required⟩ :=
    ⟨⟨by decide, rfl, rfl, by decide⟩, rfl, rfl,
      rfl, by simp [reserved], by simp, by decide⟩
  have hc : Legal ⟨"c", "Tuple[T, U]", none⟩ :=
    ⟨⟨by decide, rfl, rfl, by decide⟩, rfl, rfl,
      rfl, by simp [reserved], by simp, by decide⟩
  have h : AllLegal [⟨"a", "Dict[str, int]", some .optional⟩, ⟨"b", "T", some .required⟩,
      ⟨"c", "Tuple[T, U]", none⟩] :=
    ⟨by decide, by decide, by simpa using ⟨ha, hb, hc⟩⟩
  exact spellings_agree hk h (blockPairs 2) 1

end Spelling

end NotebookService
