/-
# `NotebookService.Proofs.Field.Names` — names that are read as they are written

A field `name: type` in a mapping has its name for a key, and a key is resolved as a
value is and then turned back into text.  A text comes back as it was.  A null has no
text, so its word is kept.  A truth value comes back as `true` or `false`, whichever of
its words was written: a field called `no` is called `false` from there on.  Where the
field is a text of its own, `- no:int` or `"no: int"`, its name is not resolved.

`names_survive_iff` says this for every list of plain fields and all six spellings.
Lost are the words for truth values other than the two that they come back as, and they
are lost exactly where the field is an entry of a mapping.
-/
import NotebookService.Proofs.Field.Spellings
import NotebookService.Proofs.Metadata.Composed

namespace NotebookService

open NotebookService.Text NotebookService.Metadata

namespace Metadata

/-! ## Keys that are respelled -/

/-- The words for truth values that are not the ones they come back as. -/
def respelledWords : List String :=
  ["True", "TRUE", "yes", "Yes", "on", "On", "False", "FALSE", "no", "No", "off", "Off"]

theorem meaningWords_keyText : ∀ w ∈ meaningWords, (w ∉ respelledWords ∧ keyText w = w) ∨
    (w ∈ respelledWords ∧ (keyText w = "true" ∨ keyText w = "false")) := by
  decide

theorem respelledWords_subset : respelledWords ⊆ meaningWords := by decide

namespace IsName

variable {name : String}

/-- Among the names are all words of ASCII letters, digits and underscores that do not
begin with a digit. -/
theorem of_ascii (hne : name.toList ≠ [])
    (h : ∀ c ∈ name.toList, c.isAlphanum = true ∨ c = '_')
    (hs : name.toList.head?.any Decimal.isDigit = false) : IsName name where
  ne_nil := hne
  word := by
    refine List.all_eq_true.2 ?_
    intro c hc
    rcases h c hc with ha | rfl
    · exact isWordChar_of_isAlphanum ha
    · rfl
  start := hs

theorem isKey (h : IsName name) (hm : name ∉ meaningWords) : IsKey name :=
  ⟨h.ne_nil, h.word, h.start, hm⟩

/-- No number begins like a name, so only words with a meaning can come back
as something else. -/
theorem keyText_cases (h : IsName name) : (name ∉ respelledWords ∧ keyText name = name) ∨
    (name ∈ respelledWords ∧ (keyText name = "true" ∨ keyText name = "false")) := by
  by_cases hm : name ∈ meaningWords
  · exact meaningWords_keyText name hm
  · exact .inl ⟨fun hr => hm (respelledWords_subset hr), (h.isKey hm).keyText_eq⟩

theorem keyText_eq_iff (h : IsName name) :
    keyText name = name ↔ name ∉ respelledWords := by
  have htrue : "true" ∉ respelledWords := by decide
  have hfalse : "false" ∉ respelledWords := by decide
  rcases h.keyText_cases with ⟨hn, he⟩ | ⟨hn, he | he⟩
  · exact ⟨fun _ => hn, fun _ => he⟩
  · exact ⟨fun hk hr => htrue (he ▸ hk.symm ▸ hr), fun hr => absurd hn hr⟩
  · exact ⟨fun hk hr => hfalse (he ▸ hk.symm ▸ hr), fun hr => absurd hn hr⟩

theorem keyText_not_mem (h : IsName name) : keyText name ∉ respelledWords := by
  rcases h.keyText_cases with ⟨hn, he⟩ | ⟨-, he | he⟩
  · rwa [he]
  · rw [he]
    decide
  · rw [he]
    decide

theorem isWord_keyText (h : IsName name) : IsWord (keyText name) := by
  rcases h.keyText_cases with ⟨-, he⟩ | ⟨-, he | he⟩
  · rw [he]
    exact h.toIsWord
  · rw [he]
    exact ⟨by decide, by decide⟩
  · rw [he]
    exact ⟨by decide, by decide⟩

/-- The words of a list that are names come back as one of them exactly if
it is not respelled. -/
theorem exists_keyText_eq_iff {α : Type} {text : α → String} {xs : List α}
    (h : ∀ x ∈ xs, IsName (text x)) {x : α} (hx : x ∈ xs) :
    (∃ y ∈ xs, keyText (text y) = text x) ↔ text x ∉ respelledWords := by
  constructor
  · rintro ⟨y, hy, he⟩
    rw [← he]
    exact (h y hy).keyText_not_mem
  · intro hr
    exact ⟨x, hx, (h x hx).keyText_eq_iff.2 hr⟩

end IsName

end Metadata

/-! ## Names of declared fields -/

/-- The names of the fields that a value declares. -/
def Field.names (v : Value) : List String := (Field.ofValue v).value.map Field.name

namespace WrittenField

variable {fs : List WrittenField} {f : WrittenField}

theorem names_parseAll {text : WrittenField → List Char}
    (h : ∀ f ∈ fs, (Field.parse (text f)).value.map Field.name = some f.name) :
    (Field.parseAll (fs.map text)).value.map Field.name = fs.map WrittenField.name := by
  induction fs with
  | nil => rfl
  | cons f fs ih =>
      obtain ⟨hf, hfs⟩ := List.forall_mem_cons.1 h
      obtain ⟨g, hg, hn⟩ := Option.map_eq_some_iff.1 hf
      have hrest := ih hfs
      simp only [List.map_cons, Field.parseAll, Noted.value_bind, Noted.value_pure, hg,
        Option.toList_some, List.singleton_append, hn, hrest]

theorem names_ofEntry {name : String} {type : List Char} (hn : IsWord name)
    (ht : RowText type) :
    (Field.ofEntry name (.str (String.ofList type))).value.map Field.name =
      some name := by
  have hdeclared : (name ++ ": " ++ String.ofList type).toList =
      name.toList ++ ':' :: ([' '] ++ type) := by simp
  have hparse :
      (Field.parse (name.toList ++ ':' :: ([' '] ++ type))).value.map Field.name =
        some name :=
    name_parse hn ht rfl
  rwa [← hdeclared] at hparse

theorem names_ofEntries {es : List (String × Value)}
    (h : ∀ e ∈ es, IsWord e.1 ∧ ∃ type, RowText type ∧ e.2 = .str (String.ofList type)) :
    (Field.ofEntries es).value.map Field.name = Table.names es := by
  induction es with
  | nil => rfl
  | cons e es ih =>
      obtain ⟨⟨hn, type, ht, he⟩, hes⟩ := List.forall_mem_cons.1 h
      obtain ⟨g, hg, hname⟩ := Option.map_eq_some_iff.1 (names_ofEntry hn ht)
      have hrest := ih hes
      obtain ⟨name, v⟩ := e
      obtain rfl : v = .str (String.ofList type) := he
      simp only [Field.ofEntries, Noted.value_bind, Noted.value_pure, hg,
        Option.toList_some, List.singleton_append, List.map_cons, hname, hrest,
        Table.names_cons]

theorem names_ofItems {item : WrittenField → Value} {name : WrittenField → String}
    (h : ∀ f ∈ fs, (Field.ofItem (item f)).value.map Field.name = [name f]) :
    (Field.ofItems (fs.map item)).value.map Field.name = fs.map name := by
  induction fs with
  | nil => rfl
  | cons f fs ih =>
      obtain ⟨hf, hfs⟩ := List.forall_mem_cons.1 h
      have hrest := ih hfs
      simp only [List.map_cons, Field.ofItems, Noted.value_bind, Noted.value_pure,
        List.map_append, hf, hrest, List.singleton_append]

end WrittenField

namespace Spelling

open WrittenField

variable {fs : List WrittenField} {key : String}

/-- The spelling writes each field as an entry of a mapping. -/
def isKeyed : Spelling → Bool
  | quoted | blockTexts _ => false
  | flowSequence | flowMapping | blockMapping _ | blockPairs _ => true

/-- The keys that stand in a field list, in a mapping or in the mappings of a list. -/
def declaredKeys : Value → List String
  | .map es => Table.names es
  | .list vs => vs.flatMap fun
    | .map es => Table.names es
    | _ => []
  | _ => []

theorem names_keyedEntries (fs : List WrittenField) :
    Table.names (keyedEntries fs) = fs.map fun f => keyText f.name := by
  simp [keyedEntries, Table.names, Function.comp_def]

theorem names_ofEntries_keyedEntries {es : List (String × Value)} (h : ∀ f ∈ fs, f.Plain)
    (hes : ∀ e ∈ es, e ∈ keyedEntries fs) :
    (Field.ofEntries es).value.map Field.name = Table.names es := by
  refine names_ofEntries ?_
  intro e he
  obtain ⟨f, hf, rfl⟩ := List.mem_map.1 (hes e he)
  exact ⟨(h f hf).name.isWord_keyText, f.typeText, (h f hf).row, rfl⟩

/-- In a mapping a field is called by its key, and all keys are names that have
been taken for keys. -/
theorem names_readAs_of_isKeyed (h : ∀ f ∈ fs, f.Plain) (sp : Spelling)
    (hs : sp.isKeyed = true) :
    Field.names (sp.readAs fs) = declaredKeys (sp.readAs fs) ∧
      ∀ name, name ∈ declaredKeys (sp.readAs fs) ↔ ∃ f ∈ fs, keyText f.name = name := by
  have hlist : Field.names (.list (fs.map fun f => .map (keyedEntries [f]))) =
      fs.map fun f => keyText f.name := by
    refine names_ofItems ?_
    intro f hf
    have hone : ∀ g ∈ [f], g.Plain := by simpa using h f hf
    exact names_ofEntries_keyedEntries hone fun e he => he
  have hkeys : declaredKeys (.list (fs.map fun f => .map (keyedEntries [f]))) =
      fs.map fun f => keyText f.name := by
    rw [declaredKeys, List.flatMap_map, List.map_eq_flatMap]
    rfl
  have hmem (name : String) : name ∈ (fs.map fun f => keyText f.name) ↔
      ∃ f ∈ fs, keyText f.name = name := List.mem_map
  cases sp with
  | quoted => cases hs
  | blockTexts => cases hs
  | flowSequence | blockPairs =>
      exact ⟨hlist.trans hkeys.symm, fun name => hkeys ▸ hmem name⟩
  | flowMapping =>
      refine ⟨names_ofEntries_keyedEntries h fun e he => he, fun name => ?_⟩
      rw [readAs, declaredKeys, names_keyedEntries, hmem]
  | blockMapping =>
      refine ⟨names_ofEntries_keyedEntries h fun e he => mem_of_mem_collect he,
        fun name => ?_⟩
      rw [readAs, declaredKeys, mem_names_collect, names_keyedEntries, hmem]

/-- As a text a field is called by the name that stands in it. -/
theorem names_readAs_of_not_isKeyed (hne : fs ≠ []) (h : ∀ f ∈ fs, f.Plain)
    (sp : Spelling) (hc : ∀ f ∈ fs, sp.Carries f) (hs : sp.isKeyed = false) :
    Field.names (sp.readAs fs) = fs.map WrittenField.name := by
  have hparse (gap : List Char) (hg : allBlank gap = true) : ∀ f ∈ fs,
      (Field.parse (f.text gap)).value.map Field.name = some f.name := by
    intro f hf
    exact name_parse (h f hf).name.toIsWord (h f hf).row hg
  cases sp with
  | flowSequence | flowMapping | blockMapping | blockPairs => cases hs
  | quoted =>
      have hparts : ∀ p ∈ fs.map fun f => f.text [' '], trim p = p ∧ IsWhole p := by
        intro p hp
        obtain ⟨f, hf, rfl⟩ := List.mem_map.1 hp
        exact ⟨(h f hf).rowText_spaced.trim_eq, (h f hf).isWhole_text (hc f hf).1⟩
      have hsplit : splitTopLevel (commaText fs) = fs.map fun f => f.text [' '] :=
        splitTopLevel_joined_of_isWhole (by simpa using hne) hparts
      have hread : Field.ofValue (quoted.readAs fs) =
          Field.parseAll (fs.map fun f => f.text [' ']) := by
        rw [readAs, Field.ofValue, String.toList_ofList, hsplit]
      rw [Field.names, hread]
      exact names_parseAll (hparse [' '] rfl)
  | blockTexts =>
      refine names_ofItems ?_
      intro f hf
      have hitem : Field.ofItem (.str (String.ofList (f.text []))) =
          Field.parseAll [f.text []] := by
        show Field.parseAll [(String.ofList (f.text [])).toList] = _
        rw [String.toList_ofList]
      have hone : ∀ g ∈ [f], (Field.parse (g.text [])).value.map Field.name =
          some g.name := by
        simpa using hparse [] rfl f hf
      rw [hitem]
      exact names_parseAll hone

/-- Plain fields are read in every spelling.  Where each is a text, they have the
names that are written.  Where they are entries of mappings they have the keys for
names, and there a name is found again exactly if it is no word for a truth value
that comes back as another. -/
theorem names_survive_iff (hk : IsKey key) (hne : fs ≠ []) (h : ∀ f ∈ fs, f.Plain)
    (sp : Spelling) (hc : ∀ f ∈ fs, sp.Carries f) (n : Nat) :
    ∃ v, read n (sp.lines key fs) = .ok ⟨[(key, v)]⟩ ∧
      (sp.isKeyed = false → Field.names v = fs.map WrittenField.name) ∧
      (sp.isKeyed = true → Field.names v = declaredKeys v ∧
        (∀ name, name ∈ declaredKeys v ↔ ∃ f ∈ fs, keyText f.name = name) ∧
        ∀ f ∈ fs, f.name ∈ declaredKeys v ↔ f.name ∉ respelledWords) := by
  refine ⟨sp.readAs fs, read_plain hk hne h sp hc n,
    names_readAs_of_not_isKeyed hne h sp hc, ?_⟩
  intro hs
  obtain ⟨hnames, hkeys⟩ := names_readAs_of_isKeyed h sp hs
  refine ⟨hnames, hkeys, ?_⟩
  intro f hf
  rw [hkeys]
  exact IsName.exists_keyText_eq_iff (fun g hg => (h g hg).name) hf

theorem names_survive_iff_pairs :
    ∃ v, read 1 ["k:", "  - no: int", "  - id: Dict[str, int]"] = .ok ⟨[("k", v)]⟩ ∧
      "no" ∉ declaredKeys v ∧
      "id" ∈ declaredKeys v := by
  have hk : IsKey "k" := ⟨by decide, rfl, rfl, by decide⟩
  have hno : Plain ⟨"no", "int", none⟩ :=
    ⟨.of_ascii (by simp) (by simp) rfl,
      ⟨by decide, rfl, rfl⟩, by simp [typeText, scalarMarks], rfl, rfl⟩
  have hid : Plain ⟨"id", "Dict[str, int]", none⟩ :=
    ⟨.of_ascii (by simp) (by simp) rfl,
      ⟨by decide, rfl, rfl⟩, by simp [typeText, scalarMarks], rfl, rfl⟩
  have h : ∀ f ∈ [⟨"no", "int", none⟩, ⟨"id", "Dict[str, int]", none⟩], Plain f := by
    simpa using ⟨hno, hid⟩
  obtain ⟨v, hread, -, hkeyed⟩ :=
    names_survive_iff hk (by simp) h (blockPairs 2) (fun _ _ => trivial) 1
  have hnames := (hkeyed rfl).2.2
  refine ⟨v, hread, ?_, ?_⟩
  · intro hm
    exact (hnames _ List.mem_cons_self).1 hm (by decide)
  · exact (hnames _ (List.mem_cons_of_mem _ List.mem_cons_self)).2 (by decide)

/-- The field `no` below a key is called `false`. -/
theorem name_no_lost :
    ¬ ∀ (key : String) (fs : List WrittenField) (sp : Spelling) (n : Nat) (v : Value),
      IsKey key → (∀ f ∈ fs, f.Plain) →
      (∀ f ∈ fs, sp.Carries f) → sp.isKeyed = true →
        read n (sp.lines key fs) = .ok ⟨[(key, v)]⟩ →
        ∀ f ∈ fs, f.name ∈ declaredKeys v := by
  intro hall
  have hk : IsKey "k" := ⟨by decide, rfl, rfl, by decide⟩
  have hno : Plain ⟨"no", "str", none⟩ :=
    ⟨.of_ascii (by simp) (by simp) rfl,
      ⟨by decide, rfl, rfl⟩, by simp [typeText, scalarMarks], rfl, rfl⟩
  have h : ∀ f ∈ [⟨"no", "str", none⟩], Plain f := by simpa using hno
  have hread : read 1 ["k:", "  no: str"] =
      .ok ⟨[("k", .map [("false", .str "str")])]⟩ :=
    read_plain hk (List.cons_ne_nil _ _) h (blockMapping 1) (fun _ _ => trivial) 1
  have hlost := hall "k" [⟨"no", "str", none⟩] (blockMapping 1) 1 _ hk h
    (fun _ _ => trivial) rfl hread
  exact absurd (hlost _ List.mem_cons_self) (by decide)

end Spelling

end NotebookService
