/-
# `NotebookService.Proofs.Field.Written` — a field as it is written

A declared field is written as a name, a colon and a type, with a marker behind the type
or none.  Read by itself, with or without a blank behind the colon, it is that field:
the type without its marker, and optional exactly for a `?`.

`WrittenField.Plain` is what it takes for a field to be read as a name and a type in
a row of its own: the type by itself is read as the text it is.  `WrittenField.Legal`
is what it takes for the text to be understood in every place where a field can
stand, and under its own name.  The brackets of the type have to balance and its
commas to stand inside of them, since fields are separated by commas.  The characters
that open strings and comments or end keys are left to those.  What type and marker
say together must not be a word with a meaning of its own, because there are places
where the type is a value by itself.
-/
import NotebookService.Field
import NotebookService.Proofs.Metadata.Flow

namespace NotebookService

open NotebookService.Text NotebookService.Metadata

/-- What can stand behind a type. -/
inductive Marker where
  | optional
  | required
  deriving DecidableEq, Repr

def Marker.char : Marker → Char
  | .optional => '?'
  | .required => '!'

/-- A field as its author writes it. -/
structure WrittenField where
  name : String
  type : String
  marker : Option Marker
  deriving DecidableEq, Repr

namespace Field

variable {s : List Char}

theorem takeWhile_ne_colon (h : ':' ∉ s) (t : List Char) :
    (s ++ ':' :: t).takeWhile (· ≠ ':') = s := by
  have hs : ∀ c ∈ s, decide (c ≠ ':') = true :=
    fun c hc => decide_eq_true fun he => h (he ▸ hc)
  rw [List.takeWhile_append_of_pos hs, List.takeWhile_cons_of_neg (by simp),
    List.append_nil]

theorem dropWhile_ne_colon (h : ':' ∉ s) (t : List Char) :
    (s ++ ':' :: t).dropWhile (· ≠ ':') = ':' :: t := by
  have hs : ∀ c ∈ s, decide (c ≠ ':') = true :=
    fun c hc => decide_eq_true fun he => h (he ▸ hc)
  rw [List.dropWhile_append_of_pos hs, List.dropWhile_cons_of_neg (by simp)]

end Field

namespace WrittenField

/-- The type with its marker. -/
def typeText (f : WrittenField) : List Char :=
  f.type.toList ++ (f.marker.map Marker.char).toList

/-- Name and type, this much apart behind the colon. -/
def text (f : WrittenField) (gap : List Char) : List Char :=
  f.name.toList ++ ':' :: (gap ++ f.typeText)

/-- The field that is meant. -/
def field (f : WrittenField) : Field := ⟨f.name, f.type, f.marker = some .optional⟩

/-! ## A name, a colon and a type -/

section

variable {name : String} {gap type : List Char}

theorem trim_declaration (hn : IsWord name) (ht : RowText type) (gap : List Char) :
    trim (name.toList ++ ':' :: (gap ++ type)) = name.toList ++ ':' :: (gap ++ type) := by
  obtain ⟨c, s, hs, -⟩ := hn.exists_cons
  have hc : isBlank c = false := hn.noBlank c (hs ▸ List.mem_cons_self)
  have hb : ¬ allBlank type = true := by simp [ht.allBlank_eq]
  have hsplit : name.toList ++ ':' :: (gap ++ type) =
      (name.toList ++ ':' :: gap) ++ type := by
    rw [List.append_assoc, List.cons_append]
  rw [hs, List.cons_append, trim_cons_of_not hc, ← List.cons_append, ← hs, hsplit,
    trimEnd_append_of_not hb, ht.trimEnd_eq]

theorem splitAtColon_declaration (hn : IsWord name) (ht : RowText type)
    (hg : allBlank gap = true) :
    Field.splitAtColon (name.toList ++ ':' :: (gap ++ type)) = (name.toList, type) := by
  have hc : ':' ∉ name.toList :=
    fun hc => ne_of_not_mem_marks (hn.not_mem_marks _ hc) (by decide) rfl
  have hm : trim (gap ++ type) = type := by
    rw [trim_append_of_allBlank_left hg, ht.trim_eq]
  rw [Field.splitAtColon, Field.dropWhile_ne_colon hc, Field.takeWhile_ne_colon hc]
  simp only [hn.noBlank.trim_eq, hm]

theorem name_parse (hn : IsWord name) (ht : RowText type) (hg : allBlank gap = true) :
    (Field.parse (name.toList ++ ':' :: (gap ++ type))).value.map Field.name =
      some name := by
  have hne : name.toList.isEmpty = false := List.isEmpty_eq_false_iff.2 hn.ne_nil
  have he : (name.toList ++ ':' :: (gap ++ type)).isEmpty = false := by simp
  simp only [Field.parse, trim_declaration hn ht, he, splitAtColon_declaration hn ht hg,
    hne, Bool.false_eq_true, if_false, String.ofList_toList]
  split <;> rfl

end

/-! ## Plain fields -/

/-- A name, and a type that is read as the text it is: a row's text that is
neither quoted nor in brackets, without a colon that would end a key, and no
number or word with a meaning. -/
structure Plain (f : WrittenField) : Prop where
  name : IsName f.name
  row : RowText f.typeText
  start : ∀ c ∈ f.typeText.head?, c ∉ scalarMarks
  colon : holdsKeyColon f.typeText = false
  resolved : resolvePlain f.typeText = .str (String.ofList f.typeText)

variable {f : WrittenField}

theorem colon_not_mem_meaningWords :
    (meaningWords.all fun w => !w.toList.contains ':') = true := rfl

namespace Plain

theorem splitKey?_typeText (h : f.Plain) : splitKey? f.typeText = none := by
  refine splitKey?_eq_none_of_splitAtColon? ?_
    (splitAtColon?_eq_none_of_holdsKeyColon h.colon 0)
  intro c hc
  have hm := h.start c hc
  simp only [scalarMarks, List.mem_cons, List.not_mem_nil, or_false, not_or] at hm
  simp [Nesting.isQuote, hm]

theorem legible_typeText (h : f.Plain) :
    Legible (.str (String.ofList f.typeText)) f.typeText where
  toRowText := h.row
  readInline_eq := by
    rw [readInline, h.row.trim_eq,
      readTrimmed_of_holdsKeyColon h.start h.colon, h.resolved]
  not_key := .inr h.splitKey?_typeText

theorem rowText_spaced (h : f.Plain) : RowText (f.text [' ']) := by
  have ht := h.name.rowText.append_space h.name.noComment h.row
  rwa [List.append_assoc] at ht

theorem rowText_joined (h : f.Plain) : RowText (f.text []) where
  ne_nil := by simp [text]
  trim_eq := trim_declaration h.name.toIsWord h.row []
  uncommented_eq := by
    obtain ⟨c, s, hs, -⟩ := h.row.exists_cons
    have hm : c ∉ scalarMarks := h.start c (by rw [hs]; rfl)
    have hq : Nesting.isQuote c = false := by
      simp only [scalarMarks, List.mem_cons, List.not_mem_nil, or_false, not_or] at hm
      simp [Nesting.isQuote, hm]
    have hc : c ≠ '#' := by
      rintro rfl
      have hu := h.row.uncommented_eq
      rw [hs] at hu
      cases hu
    have hstrip (b : Bool) : uncommented b none f.typeText = f.typeText := by
      have hu := h.row.uncommented_eq
      rw [hs, uncommented_cons hc hq] at hu ⊢
      exact hu
    have htext : f.text [] = (f.name.toList ++ [':']) ++ f.typeText := by simp [text]
    obtain ⟨b, hb⟩ := exists_uncommented_append h.name.noComment true f.typeText
    rw [htext, hb, hstrip]

/-- Without a blank behind the colon, the whole is a text: no key ends at that colon. -/
theorem legible_text (h : f.Plain) :
    Legible (.str (String.ofList (f.text []))) (f.text []) := by
  obtain ⟨c, s, hs, hd, hm⟩ := h.name.exists_cons
  obtain ⟨e, t, ht, he⟩ := h.row.exists_cons
  have hfirst : (f.text []).head? = some c := by
    rw [text, hs]
    rfl
  have hn : ':' ∉ f.name.toList := fun hc => h.name.not_mem_marks _ hc (by decide)
  have hh : f.typeText.head?.any (· ≠ ' ') = true := by
    have hne : e ≠ ' ' := by
      rintro rfl
      cases he
    rw [ht]
    simpa using hne
  have hw : String.ofList (f.text []) ∉ meaningWords := by
    intro hw
    have hc := List.all_eq_true.1 colon_not_mem_meaningWords _ hw
    simp [text] at hc
  have hcolon : holdsKeyColon (f.text []) = false :=
    holdsKeyColon_append_colon hn h.colon hh
  refine .of_head h.rowText_joined hfirst hd hm hw hcolon ?_
  refine splitKey?_eq_none_of_splitAtColon? ?_
    (splitAtColon?_eq_none_of_holdsKeyColon hcolon 0)
  rw [hfirst]
  rintro _ ⟨⟩
  exact isQuote_of_not_mem_marks hm

/-- Nothing is cut in front of the type. -/
theorem isWhole_text (h : f.Plain) (hw : IsWhole f.typeText) :
    IsWhole (f.text [' ']) := by
  have hc : ∀ c ∈ f.name.toList ++ [':', ' '],
      (Nesting.isOpening c = false ∧ Nesting.isClosing c = false ∧ c ≠ ',') ∧
      Nesting.isQuote c = false := by
    intro c hc
    rcases List.mem_append.1 hc with hc | hc
    · have hm := h.name.not_mem_marks c hc
      have hcomma : c ≠ ',' := by
        rintro rfl
        have hword := List.all_eq_true.1 h.name.word _ hc
        cases hword
      exact ⟨⟨isOpening_of_not_mem_marks hm, isClosing_of_not_mem_marks hm, hcomma⟩,
        isQuote_of_not_mem_marks hm⟩
    · rcases List.mem_cons.1 hc with rfl | hc
      · decide
      · rw [List.mem_singleton.1 hc]
        decide
  have hunnested : Unnested (f.name.toList ++ [':', ' ']) := fun c hm => (hc c hm).1
  have hunquoted : Unquoted (f.name.toList ++ [':', ' ']) := fun c hm => (hc c hm).2
  have hbalanced : balanced 0 (f.name.toList ++ [':', ' ']) = true := by
    have hb := hunnested.balanced_append 0 []
    rwa [List.append_nil] at hb
  have hsplit : f.text [' '] = (f.name.toList ++ [':', ' ']) ++ f.typeText := by
    simp [text]
  rw [hsplit]
  exact (isWhole_of_balanced hbalanced hunquoted).append hw

/-- Among others, a field is a part by itself if its type is. -/
theorem standsAlone_text (h : f.Plain) (hw : IsWhole f.typeText)
    (hp : PassedOver f.typeText) :
    StandsAlone (f.text [' ']) where
  ne_nil := h.rowText_spaced.ne_nil
  trim_eq := h.rowText_spaced.trim_eq
  whole := h.isWhole_text hw
  passed := by
    have hblank : NoComment [' '] := by decide
    have hhead := h.name.noComment.passedOver.append (hblank.passedOver.append hp)
    have hsplit : f.text [' '] = (f.name.toList ++ [':']) ++ ([' '] ++ f.typeText) := by
      simp [text]
    rwa [hsplit]

end Plain

/-! ## Legal fields -/

/-- The characters that metadata keeps for strings, comments, escapes and keys. -/
def reserved : List Char := ['"', '\'', '#', '\\', ':']

/-- The field can be written wherever fields are. -/
structure Legal (f : WrittenField) : Prop where
  name : IsKey f.name
  trim_eq : trim f.type.toList = f.type.toList
  start : f.type.toList.head?.any (fun c => isWordChar c && !Decimal.isDigit c) = true
  balanced_eq : balanced 0 f.type.toList = true
  plain : ∀ c ∈ f.type.toList, c ∉ reserved
  unmarked : ∀ c ∈ f.type.toList.getLast?, c ≠ '?' ∧ c ≠ '!'
  meaning : String.ofList f.typeText ∉ meaningWords

namespace Legal

/-! ## The type -/

theorem exists_cons (h : f.Legal) : ∃ c s, f.typeText = c :: s ∧ isWordChar c = true ∧
    Decimal.isDigit c = false := by
  have hs := h.start
  cases ht : f.type.toList with
  | nil =>
      rw [ht] at hs
      cases hs
  | cons c s =>
      rw [ht] at hs
      have hc : isWordChar c = true ∧ Decimal.isDigit c = false := by simpa using hs
      exact ⟨c, s ++ (f.marker.map Marker.char).toList, by
          rw [typeText, ht, List.cons_append], hc⟩

theorem type_ne_nil (h : f.Legal) : f.type.toList ≠ [] := by
  intro he
  have hs := h.start
  rw [he] at hs
  cases hs

theorem trimEnd_type (h : f.Legal) : trimEnd f.type.toList = f.type.toList := by
  rw [← h.trim_eq, trim, trimEnd_trimEnd]

theorem trim_typeText (h : f.Legal) : trim f.typeText = f.typeText := by
  obtain ⟨c, s, hs, hc, -⟩ := h.exists_cons
  rw [hs, trim_cons_of_not (isBlank_of_isWordChar hc), ← hs, typeText]
  cases f.marker with
  | none => simpa using h.trimEnd_type
  | some m => cases m <;> exact trimEnd_concat_of_not rfl

theorem not_mem_reserved (h : f.Legal) : ∀ c ∈ f.typeText, c ∉ reserved := by
  intro c hc
  rcases List.mem_append.1 hc with hc | hc
  · exact h.plain c hc
  · cases hm : f.marker with
    | none =>
        rw [hm] at hc
        cases hc
    | some m =>
        rw [hm] at hc
        rw [List.mem_singleton.1 hc]
        cases m <;> decide

theorem colon_not_mem_typeText (h : f.Legal) : ':' ∉ f.typeText := by
  intro hc
  exact h.not_mem_reserved _ hc (by decide)

theorem balanced_typeText (h : f.Legal) : balanced 0 f.typeText = true := by
  refine balanced_append h.balanced_eq ?_
  cases f.marker with
  | none => rfl
  | some m => cases m <;> rfl

theorem noComment_typeText (h : f.Legal) : NoComment f.typeText := by
  intro c hc
  have hr := h.not_mem_reserved c hc
  simp only [reserved, List.mem_cons, List.not_mem_nil, or_false, not_or] at hr
  simp [Nesting.isQuote, hr]

theorem isPlain (h : f.Legal) : f.Plain := by
  obtain ⟨c, s, hs, hc, hd⟩ := h.exists_cons
  have hm := not_mem_marks_of_isWordChar hc
  have hword := h.meaning
  refine ⟨h.name.isName, ?_, ?_, holdsKeyColon_eq_false h.colon_not_mem_typeText, ?_⟩
  · exact ⟨hs ▸ List.cons_ne_nil c s, h.trim_typeText,
      uncommented_eq_self h.noComment_typeText true⟩
  · rw [hs]
    rintro _ ⟨⟩ he
    exact hm (scalarMarks_subset_marks he)
  · rw [hs] at hword ⊢
    exact resolvePlain_of_readInt?_eq_none hword (readInt?_eq_none_of_head hd hm)
      (readDecimal?_eq_none_of_head hd hm)

theorem unquoted_typeText (h : f.Legal) : Unquoted f.typeText :=
  fun c hc => (h.noComment_typeText c hc).2

theorem isWhole_typeText (h : f.Legal) : IsWhole f.typeText :=
  isWhole_of_balanced h.balanced_typeText h.unquoted_typeText

theorem standsAlone_text (h : f.Legal) : StandsAlone (f.text [' ']) :=
  h.isPlain.standsAlone_text h.isWhole_typeText h.noComment_typeText.passedOver

/-- Nothing in the text opens, closes or escapes a string. -/
theorem not_mem_text (h : f.Legal) {c : Char} (hc : c ∈ f.text [' ']) :
    c ≠ '"' ∧ c ≠ '\\' := by
  rcases List.mem_append.1 hc with hc | hc
  · have hm := h.name.isWord.not_mem_marks c hc
    have hb : c ≠ '\\' := by
      rintro rfl
      have hw := List.all_eq_true.1 h.name.word _ hc
      cases hw
    exact ⟨ne_of_not_mem_marks hm (by decide), hb⟩
  · rcases List.mem_cons.1 hc with rfl | hc
    · decide
    · rcases List.mem_cons.1 hc with rfl | hc
      · decide
      · have hr := h.not_mem_reserved c hc
        simp only [reserved, List.mem_cons, List.not_mem_nil, or_false, not_or] at hr
        exact ⟨hr.1, hr.2.2.2.1⟩

/-! ## Reading one field -/

theorem splitMarker_typeText (h : f.Legal) :
    Field.splitMarker f.typeText =
      (f.type.toList, decide (f.marker = some .optional)) := by
  unfold Field.splitMarker typeText
  cases hm : f.marker with
  | none =>
      have ho : f.type.toList.getLast? ≠ some '?' := fun hl => (h.unmarked _ hl).1 rfl
      have hr : f.type.toList.getLast? ≠ some '!' := fun hl => (h.unmarked _ hl).2 rfl
      simp [ho, hr]
  | some m => cases m <;> simp [Marker.char, h.trimEnd_type]

theorem parse_text {gap : List Char} (h : f.Legal) (hg : allBlank gap = true) :
    Field.parse (f.text gap) = pure (some f.field) := by
  have hword := h.name.isWord
  have hn : f.name.toList.isEmpty = false := List.isEmpty_eq_false_iff.2 h.name.ne_nil
  have ht : f.type.toList.isEmpty = false := List.isEmpty_eq_false_iff.2 h.type_ne_nil
  have he : (f.name.toList ++ ':' :: (gap ++ f.typeText)).isEmpty = false := by simp
  simp only [Field.parse, text, trim_declaration hword h.isPlain.row, he,
    splitAtColon_declaration hword h.isPlain.row hg, hn, h.splitMarker_typeText, ht,
    Bool.false_eq_true, if_false, String.ofList_toList]
  rfl

end Legal

/-! ## Reading all fields -/

/-- All fields of a list can be written, each under a name of its own. -/
structure AllLegal (fs : List WrittenField) : Prop where
  ne_nil : fs ≠ []
  nodup : (fs.map WrittenField.name).Nodup
  legal : ∀ f ∈ fs, f.Legal

variable {fs : List WrittenField}

theorem parseAll_texts {gap : List Char} (hg : allBlank gap = true)
    (h : ∀ f ∈ fs, f.Legal) :
    Field.parseAll (fs.map fun f => f.text gap) = pure (fs.map field) := by
  induction fs with
  | nil => rfl
  | cons f fs ih =>
      obtain ⟨hf, hfs⟩ := List.forall_mem_cons.1 h
      rw [List.map_cons, Field.parseAll, hf.parse_text hg, ih hfs]
      rfl

theorem ofValue_joined (h : AllLegal fs) :
    Field.ofValue (.str (String.ofList (joined (fs.map fun f => f.text [' '])))) =
      pure (fs.map field) := by
  have hp : ∀ p ∈ fs.map fun f => f.text [' '], trim p = p ∧ IsWhole p := by
    intro p hp
    obtain ⟨f, hf, rfl⟩ := List.mem_map.1 hp
    exact ⟨(h.legal f hf).standsAlone_text.trim_eq, (h.legal f hf).standsAlone_text.whole⟩
  have hne : (fs.map fun f => f.text [' ']) ≠ [] := by simpa using h.ne_nil
  rw [Field.ofValue, String.toList_ofList, splitTopLevel_joined_of_isWhole hne hp]
  exact parseAll_texts rfl h.legal

/-- The fields as entries of a mapping. -/
def entries (fs : List WrittenField) : List (String × Value) :=
  fs.map fun f => (f.name, .str (String.ofList f.typeText))

theorem ofEntry_entry {f : WrittenField} (h : f.Legal) :
    Field.ofEntry f.name (.str (String.ofList f.typeText)) = pure (some f.field) := by
  have ht : (f.name ++ ": " ++ String.ofList f.typeText).toList = f.text [' '] := by
    simp [text]
  have hp : Field.parse (f.text [' ']) = pure (some f.field) := h.parse_text rfl
  rw [← hp, ← ht]
  rfl

theorem ofEntries_entries (h : ∀ f ∈ fs, f.Legal) :
    Field.ofEntries (entries fs) = pure (fs.map field) := by
  induction fs with
  | nil => rfl
  | cons f fs ih =>
      obtain ⟨hf, hfs⟩ := List.forall_mem_cons.1 h
      have hr := ih hfs
      rw [entries] at hr ⊢
      rw [List.map_cons, Field.ofEntries, ofEntry_entry hf, hr]
      rfl

theorem ofItems_map {item : WrittenField → Value}
    (h : ∀ f ∈ fs, Field.ofItem (item f) = pure [f.field]) :
    Field.ofItems (fs.map item) = pure (fs.map field) := by
  induction fs with
  | nil => rfl
  | cons f fs ih =>
      obtain ⟨hf, hfs⟩ := List.forall_mem_cons.1 h
      rw [List.map_cons, Field.ofItems, hf, ih hfs]
      rfl

theorem ofItem_pair {f : WrittenField} (h : f.Legal) :
    Field.ofItem (.map (entries [f])) = pure [f.field] := by
  rw [Field.ofItem, ofEntries_entries (by simpa using h)]
  rfl

theorem ofItem_text {f : WrittenField} (h : f.Legal) :
    Field.ofItem (.str (String.ofList (f.text []))) = pure [f.field] := by
  have hf : ∀ g ∈ [f], g.Legal := by simpa using h
  have hp : Field.parseAll ([f].map fun g => g.text []) = pure ([f].map field) :=
    parseAll_texts rfl hf
  show Field.parseAll [(String.ofList (f.text [])).toList] = _
  rw [String.toList_ofList]
  exact hp

end WrittenField

end NotebookService
