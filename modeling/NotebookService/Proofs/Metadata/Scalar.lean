/-
# `NotebookService.Proofs.Metadata.Scalar` — one-line values and keys that are read back

What the inline readers make of texts that were written for them: a string between
double quotes, an integer's digits, a word that is a key.  Two readers see such a text
before its value is asked for.  The comment stripper must leave it whole, and the key
splitter must not find a key in it where an item of a list may be a pair.

`Legible` puts these facts about a text together, so that the block readers need not
know which kind of scalar they are at.
-/
import NotebookService.Proofs.Decimal.Digits
import NotebookService.Proofs.Metadata.Reader
import NotebookService.Proofs.Text.WordChar

namespace NotebookService.Metadata

open NotebookService.Text

variable {s t : List Char}

/-! ## Texts without a colon -/

theorem holdsKeyColon_eq_false (h : ':' ∉ s) : holdsKeyColon s = false := by
  induction s with
  | nil => rfl
  | cons c s ih =>
      obtain ⟨hc, hs⟩ := not_or.1 (mt List.mem_cons.2 h)
      cases s with
      | nil => simpa [holdsKeyColon] using Ne.symm hc
      | cons d s => rw [holdsKeyColon, ih hs]; simp [Ne.symm hc]

theorem splitAtColon?_cons {c : Char} (hc : c ≠ ':') (depth : Nat) (s : List Char) :
    splitAtColon? depth (c :: s) =
      (splitAtColon? (if Nesting.isOpening c then depth + 1
        else if Nesting.isClosing c then depth - 1 else depth) s).map fun p =>
          (c :: p.1, p.2) := by
  rw [splitAtColon?, if_neg fun h => hc h.1]

theorem splitAtColon?_eq_none (h : ':' ∉ s) (depth : Nat) :
    splitAtColon? depth s = none := by
  induction s generalizing depth with
  | nil => rfl
  | cons c s ih =>
      obtain ⟨hc, hs⟩ := not_or.1 (mt List.mem_cons.2 h)
      rw [splitAtColon?_cons (Ne.symm hc), ih hs, Option.map_none]

theorem splitKey?_eq_none (h : ':' ∉ s) : splitKey? s = none := by
  have ha : splitAfterQuote? s = none := by
    cases s with
    | nil => rfl
    | cons c s =>
        rw [splitAfterQuote?]
        split
        · split
          · rfl
          · rename_i q after hd
            have hm : ':' ∉ after := by
              intro hm
              have hs := (List.dropWhile_sublist _).subset (hd ▸
                List.mem_cons_of_mem q hm)
              exact h (List.mem_cons_of_mem c hs)
            rw [splitAtColon?_eq_none hm]
            rfl
        · exact splitAtColon?_eq_none h 0
  rw [splitKey?, ha]
  rfl

/-! ## Quoted strings -/

theorem readDoubleQuotes?_cons {c : Char} (hq : c ≠ '"') (hb : c ≠ '\\') (s : List Char) :
    readDoubleQuotes? (c :: s) = (readDoubleQuotes? s).map fun p => (c :: p.1, p.2) := by
  rw [readDoubleQuotes?.eq_def]
  split
  · rename_i h
    cases h
  · rename_i h
    exact absurd (List.cons.inj h).1 hq
  · rename_i h
    exact absurd (List.cons.inj h).1 hb
  · rename_i h
    exact absurd (List.cons.inj h).1 hb
  · rename_i h
    obtain ⟨rfl, rfl⟩ := List.cons.inj h
    rfl

theorem readDoubleQuotes?_append (hq : '"' ∉ s) (hb : '\\' ∉ s) (t : List Char) :
    readDoubleQuotes? (s ++ '"' :: t) = some (s, t) := by
  induction s with
  | nil => simp [readDoubleQuotes?]
  | cons c s ih =>
      obtain ⟨hcq, hsq⟩ := not_or.1 (mt List.mem_cons.2 hq)
      obtain ⟨hcb, hsb⟩ := not_or.1 (mt List.mem_cons.2 hb)
      rw [List.cons_append, readDoubleQuotes?_cons (Ne.symm hcq) (Ne.symm hcb),
        ih hsq hsb, Option.map_some]

theorem readInline_doubleQuoted (hq : '"' ∉ s) (hb : '\\' ∉ s) :
    readInline ('"' :: (s ++ ['"'])) = .ok (.str (String.ofList s)) := by
  rw [readInline, trim_cons_concat rfl rfl, readTrimmed, readDoubleQuotes?_append hq hb]
  rfl

/-! ## Plain scalars -/

/-- What a reader takes for something else than a plain scalar. -/
def scalarMarks : List Char := ['[', '{', '"', '\'', '|', '>']

theorem readTrimmed_of_holdsKeyColon (hm : ∀ c ∈ s.head?, c ∉ scalarMarks)
    (hk : holdsKeyColon s = false) :
    readTrimmed s = .ok (resolvePlain s) := by
  cases s with
  | nil => simp [readTrimmed, holdsKeyColon]
  | cons c s =>
      have hc : c ∉ scalarMarks := hm c rfl
      simp only [scalarMarks, List.mem_cons, List.not_mem_nil, or_false, not_or] at hc
      rw [readTrimmed.eq_def]
      split <;> simp_all

theorem readTrimmed_plain (hm : ∀ c ∈ s.head?, c ∉ scalarMarks) (hk : ':' ∉ s) :
    readTrimmed s = .ok (resolvePlain s) :=
  readTrimmed_of_holdsKeyColon hm (holdsKeyColon_eq_false hk)

/-- The words that stand for a null or a truth value. -/
def meaningWords : List String := nullWords ++ trueWords ++ falseWords

theorem head?_meaningWords :
    (meaningWords.all fun w =>
      w.toList.head?.all fun c => !Decimal.isDigit c && c != '-') = true := rfl

theorem resolvePlain_of_readInt? {i : Int} (hw : String.ofList s ∉ meaningWords)
    (hi : readInt? s = some i) : resolvePlain s = .int i := by
  simp only [meaningWords, List.mem_append, not_or] at hw
  simp [resolvePlain, hw, hi]

theorem resolvePlain_of_readInt?_eq_none (hw : String.ofList s ∉ meaningWords)
    (hi : readInt? s = none) (hd : readDecimal? s = none) :
    resolvePlain s = .str (String.ofList s) := by
  simp only [meaningWords, List.mem_append, not_or] at hw
  simp [resolvePlain, hw, hi, hd]

/-! ## Integers -/

theorem splitSign_of_head (h : ∀ c ∈ s.head?, c ≠ '-' ∧ c ≠ '+') :
    splitSign s = (false, s) := by
  cases s with
  | nil => rfl
  | cons c s =>
      obtain ⟨hm, hp⟩ := h c rfl
      simp [splitSign, hm, hp]

theorem splitSign_digitsOf (n : Nat) :
    splitSign (Decimal.digitsOf n) = (false, Decimal.digitsOf n) := by
  refine splitSign_of_head fun c hc => ?_
  have hd := Decimal.isDigit_of_mem_digitsOf (List.mem_of_mem_head? hc)
  constructor
  · rintro rfl
    exact absurd hd (by decide)
  · rintro rfl
    exact absurd hd (by decide)

theorem readInt?_of_splitSign {negative : Bool} {n : Nat} {i : Int}
    (hs : splitSign s = (negative, Decimal.digitsOf n))
    (hi : (if negative then -(n : Int) else n) = i) (h : isInt64 i = true) :
    readInt? s = some i := by
  have hd : ((Decimal.digitsOf n).isEmpty || !(Decimal.digitsOf n).all Decimal.isDigit) =
      false := by
    rw [Decimal.all_isDigit_digitsOf,
      List.isEmpty_eq_false_iff.2 (Decimal.digitsOf_ne_nil n)]
    rfl
  simp only [readInt?, hs, hd, Bool.false_eq_true, if_false, Decimal.valueOf_digitsOf,
    hi, h, if_true]

theorem readInt?_integerText {i : Int} (h : isInt64 i = true) :
    readInt? (Decimal.integerText i) = some i := by
  unfold Decimal.integerText
  split
  · refine readInt?_of_splitSign (n := i.natAbs) rfl ?_ h
    rw [if_pos rfl]
    omega
  · refine readInt?_of_splitSign (splitSign_digitsOf _) ?_ h
    rw [if_neg Bool.false_ne_true]
    omega

theorem not_mem_meaningWords_of_head {c : Char} (hc : c ∈ s.head?)
    (h : Decimal.isDigit c = true ∨ c = '-') : String.ofList s ∉ meaningWords := by
  intro hw
  have hm := List.all_eq_true.1 head?_meaningWords _ hw
  rw [String.toList_ofList, Option.mem_def.1 hc, Option.all_some] at hm
  rcases h with hd | rfl
  · rw [hd] at hm
    cases hm
  · rw [Bool.and_comm] at hm
    cases hm

theorem resolvePlain_integerText {i : Int} (h : isInt64 i = true) :
    resolvePlain (Decimal.integerText i) = .int i := by
  obtain ⟨c, s, hs⟩ := List.exists_cons_of_ne_nil (Decimal.integerText_ne_nil i)
  have hc : c ∈ (Decimal.integerText i).head? := by rw [hs]; rfl
  exact resolvePlain_of_readInt?
    (not_mem_meaningWords_of_head hc (Decimal.mem_integerText (List.mem_of_mem_head? hc)))
    (readInt?_integerText h)

/-! ## Keys -/

theorem scalarMarks_subset_marks : scalarMarks ⊆ marks := by decide

theorem splitSign_of_not_mem_marks {c : Char} (hm : c ∉ marks) :
    splitSign (c :: s) = (false, c :: s) := by
  refine splitSign_of_head ?_
  rintro d ⟨⟩
  exact ⟨ne_of_not_mem_marks hm (by decide), ne_of_not_mem_marks hm (by decide)⟩

theorem readInt?_eq_none_of_head {c : Char} (hd : Decimal.isDigit c = false)
    (hm : c ∉ marks) :
    readInt? (c :: s) = none := by
  rw [readInt?, splitSign_of_not_mem_marks hm]
  simp [hd]

theorem readDecimal?_eq_none_of_head {c : Char} (hd : Decimal.isDigit c = false)
    (hm : c ∉ marks) :
    readDecimal? (c :: s) = none := by
  have hp : c ≠ '.' := ne_of_not_mem_marks hm (by decide)
  rw [readDecimal?, splitSign_of_not_mem_marks hm]
  simp [hd, hp]

/-- A text that begins like a word and is none of those with a meaning is that text. -/
theorem readTrimmed_of_head {c : Char} (hc : s.head? = some c)
    (hd : Decimal.isDigit c = false) (hm : c ∉ marks)
    (hw : String.ofList s ∉ meaningWords) (hk : holdsKeyColon s = false) :
    readTrimmed s = .ok (.str (String.ofList s)) := by
  have hp : ∀ e ∈ s.head?, e ∉ scalarMarks := by
    rw [hc]
    rintro e ⟨⟩ he
    exact hm (scalarMarks_subset_marks he)
  obtain ⟨t, rfl⟩ := List.head?_eq_some_iff.1 hc
  rw [readTrimmed_of_holdsKeyColon hp hk, resolvePlain_of_readInt?_eq_none hw
    (readInt?_eq_none_of_head hd hm) (readDecimal?_eq_none_of_head hd hm)]

theorem splitAtColon?_append (hs : ∀ c ∈ s, c ∉ marks)
    (ht : t = [] ∨ t.head? = some ' ') :
    splitAtColon? 0 (s ++ ':' :: t) = some (s, t) := by
  induction s with
  | nil => rw [List.nil_append, splitAtColon?, if_pos ⟨rfl, rfl, ht⟩]
  | cons c s ih =>
      have hc := hs c List.mem_cons_self
      have hr := ih fun d hd => hs d (List.mem_cons_of_mem c hd)
      rw [List.cons_append, splitAtColon?_cons (ne_of_not_mem_marks hc (by decide)),
        isOpening_of_not_mem_marks hc, isClosing_of_not_mem_marks hc]
      simp [hr]

/-- A word behind which a colon ends a key. -/
structure IsWord (name : String) : Prop where
  ne_nil : name.toList ≠ []
  word : name.toList.all isWordChar = true

/-- The key that a word is taken for.  It is the word, or this library's spelling of a
number or truth value. -/
def keyText (name : String) : String := (resolvePlain name.toList).scalarText?.getD name

namespace IsWord

variable {name : String}

theorem noBlank (h : IsWord name) : NoBlank name.toList := by
  intro c hc
  exact isBlank_of_isWordChar (List.all_eq_true.1 h.word c hc)

theorem not_mem_marks (h : IsWord name) : ∀ c ∈ name.toList, c ∉ marks := by
  intro c hc
  exact not_mem_marks_of_isWordChar (List.all_eq_true.1 h.word c hc)

theorem exists_cons (h : IsWord name) : ∃ c s, name.toList = c :: s ∧ c ∉ marks := by
  obtain ⟨c, s, hs⟩ := List.exists_cons_of_ne_nil h.ne_nil
  exact ⟨c, s, hs, h.not_mem_marks c (hs ▸ List.mem_cons_self)⟩

theorem readInline_eq (h : IsWord name) :
    readInline name.toList = .ok (resolvePlain name.toList) := by
  have hm : ∀ c ∈ name.toList.head?, c ∉ scalarMarks := by
    intro c hc hs
    exact h.not_mem_marks c (List.mem_of_mem_head? hc) (scalarMarks_subset_marks hs)
  have hk : ':' ∉ name.toList := fun hc => h.not_mem_marks _ hc (by decide)
  rw [readInline, h.noBlank.trim_eq, readTrimmed_plain hm hk]

theorem readKey_eq (h : IsWord name) : readKey name.toList = .ok (keyText name) := by
  rw [readKey, if_neg (by simpa using h.ne_nil), h.readInline_eq, String.ofList_toList]
  rfl

theorem splitKey?_append (h : IsWord name) (ht : t = [] ∨ t.head? = some ' ') :
    splitKey? (name.toList ++ ':' :: t) = some (name.toList, trim t) := by
  obtain ⟨c, s, hs, hm⟩ := h.exists_cons
  have hq : Nesting.isQuote c = false := isQuote_of_not_mem_marks hm
  have ha : splitAfterQuote? (name.toList ++ ':' :: t) = some (name.toList, t) := by
    rw [← splitAtColon?_append h.not_mem_marks ht, hs, List.cons_append, splitAfterQuote?,
      if_neg (by simp [hq])]
  rw [splitKey?, ha]
  show some (trimEnd name.toList, trim t) = _
  rw [h.noBlank.trimEnd_eq]

theorem noComment (h : IsWord name) : NoComment (name.toList ++ [':']) := by
  intro c hc
  rcases List.mem_append.1 hc with hc | hc
  · have hm := h.not_mem_marks c hc
    exact ⟨ne_of_not_mem_marks hm (by decide), isQuote_of_not_mem_marks hm⟩
  · rw [List.mem_singleton.1 hc]
    decide

theorem rowText (h : IsWord name) : RowText (name.toList ++ [':']) := by
  refine .of_plain (by simp) ?_ h.noComment
  intro c hc
  rcases List.mem_append.1 hc with hc | hc
  · exact h.noBlank c hc
  · rw [List.mem_singleton.1 hc]
    decide

theorem isItem_append (h : IsWord name) (n d : Nat) (s : List Char) :
    Row.isItem ⟨n, d, name.toList ++ s⟩ = false := by
  obtain ⟨c, t, ht, hm⟩ := h.exists_cons
  have hc : c ≠ '-' := ne_of_not_mem_marks hm (by decide)
  rw [Row.isItem, ht]
  simp [isItemText, hc]

theorem startsFlow_append (h : IsWord name) (s : List Char) :
    startsFlow (name.toList ++ s) = false := by
  obtain ⟨c, t, ht, hm⟩ := h.exists_cons
  have hc : ∀ e ∈ marks, c ≠ e := fun e he => ne_of_not_mem_marks hm he
  rw [ht]
  simp [startsFlow, hc '[' (by decide), hc '{' (by decide), hc '"' (by decide),
    hc '\'' (by decide)]

end IsWord

/-- A name as a program has it: a word that does not begin with a digit. -/
structure IsName (name : String) : Prop extends IsWord name where
  start : name.toList.head?.any Decimal.isDigit = false

theorem IsName.exists_cons {name : String} (h : IsName name) :
    ∃ c s, name.toList = c :: s ∧ Decimal.isDigit c = false ∧ c ∉ marks := by
  obtain ⟨c, s, hs, hm⟩ := h.toIsWord.exists_cons
  have hd := h.start
  rw [hs, List.head?_cons, Option.any_some] at hd
  exact ⟨c, s, hs, hd, hm⟩

/-- A name that is a key as it stands: word characters, a digit not first, and no word
that means something else. -/
structure IsKey (name : String) : Prop where
  ne_nil : name.toList ≠ []
  word : name.toList.all isWordChar = true
  start : name.toList.head?.any Decimal.isDigit = false
  meaning : name ∉ meaningWords

namespace IsKey

variable {name : String}

theorem isWord (h : IsKey name) : IsWord name := ⟨h.ne_nil, h.word⟩

theorem isName (h : IsKey name) : IsName name := ⟨h.isWord, h.start⟩

theorem exists_cons (h : IsKey name) :
    ∃ c s, name.toList = c :: s ∧ Decimal.isDigit c = false ∧
    c ∉ marks := h.isName.exists_cons

/-- No number begins like a key. -/
theorem resolvePlain_eq (h : IsKey name) : resolvePlain name.toList = .str name := by
  obtain ⟨c, s, hs, hd, hm⟩ := h.exists_cons
  have hw : String.ofList name.toList ∉ meaningWords := by
    rw [String.ofList_toList]
    exact h.meaning
  rw [hs] at hw ⊢
  rw [resolvePlain_of_readInt?_eq_none hw (readInt?_eq_none_of_head hd hm)
    (readDecimal?_eq_none_of_head hd hm), ← hs, String.ofList_toList]

theorem keyText_eq (h : IsKey name) : keyText name = name := by
  rw [keyText, h.resolvePlain_eq]
  rfl

theorem readKey_eq (h : IsKey name) :
    readKey name.toList = .ok name := by rw [h.isWord.readKey_eq, h.keyText_eq]

end IsKey

/-! ## Legible texts -/

/-- The text stands for the value wherever one line holds it, behind a
key or behind a dash. -/
structure Legible (v : Value) (s : List Char) : Prop extends RowText s where
  readInline_eq : readInline s = .ok v
  not_key : startsFlow s = true ∨ splitKey? s = none

theorem flowParts_nil : flowParts [] = [] := rfl

/-- The word for a truth value. -/
def boolText : Bool → List Char
  | true => ['t', 'r', 'u', 'e']
  | false => ['f', 'a', 'l', 's', 'e']

namespace Legible

theorem of_plain {v : Value} (ht : RowText s) (hm : ∀ c ∈ s.head?, c ∉ scalarMarks)
    (hk : ':' ∉ s) (hv : resolvePlain s = v) : Legible v s where
  toRowText := ht
  readInline_eq := by rw [readInline, ht.trim_eq, readTrimmed_plain hm hk, hv]
  not_key := .inr (splitKey?_eq_none hk)

theorem of_head {c : Char} (ht : RowText s) (hc : s.head? = some c)
    (hd : Decimal.isDigit c = false) (hm : c ∉ marks)
    (hw : String.ofList s ∉ meaningWords) (hk : holdsKeyColon s = false)
    (hn : splitKey? s = none) : Legible (.str (String.ofList s)) s where
  toRowText := ht
  readInline_eq := by rw [readInline, ht.trim_eq, readTrimmed_of_head hc hd hm hw hk]
  not_key := .inr hn

theorem null : Legible .null ['~'] := by
  have ht : RowText ['~'] := .of_plain (by decide) (by decide) (by decide)
  exact of_plain ht (by simp [scalarMarks]) (by decide) rfl

theorem bool (b : Bool) : Legible (.bool b) (boolText b) := by
  have ht : RowText (boolText b) := by
    cases b <;> exact .of_plain (by decide) (by decide) (by decide)
  cases b with
  | true => exact of_plain ht (by simp [boolText, scalarMarks]) (by decide) rfl
  | false => exact of_plain ht (by simp [boolText, scalarMarks]) (by decide) rfl

theorem int {i : Int} (h : isInt64 i = true) :
    Legible (.int i) (Decimal.integerText i) := by
  have hc : ∀ c ∈ Decimal.integerText i, isBlank c = false ∧
    (c ≠ '#' ∧ Nesting.isQuote c = false) ∧
      c ∉ scalarMarks ∧ c ≠ ':' := by
    intro c hc
    rcases Decimal.mem_integerText hc with hd | rfl
    · have hw := isWordChar_of_isDigit hd
      have hm := not_mem_marks_of_isWordChar hw
      refine ⟨isBlank_of_isWordChar hw, ⟨?_, isQuote_of_not_mem_marks hm⟩, ?_, ?_⟩
      · exact ne_of_not_mem_marks hm (by decide)
      · exact fun hs => hm (scalarMarks_subset_marks hs)
      · exact ne_of_not_mem_marks hm (by decide)
    · decide
  refine of_plain (.of_plain (Decimal.integerText_ne_nil i) ?_ ?_) ?_ ?_
    (resolvePlain_integerText h)
  · intro c hm
    exact (hc c hm).1
  · intro c hm
    exact (hc c hm).2.1
  · intro c hm
    exact (hc c (List.mem_of_mem_head? hm)).2.2.1
  · intro hm
    exact (hc _ hm).2.2.2 rfl

theorem doubleQuoted (hq : '"' ∉ s) (hb : '\\' ∉ s) :
    Legible (.str (String.ofList s)) ('"' :: (s ++ ['"'])) where
  ne_nil := List.cons_ne_nil _ _
  trim_eq := trim_cons_concat rfl rfl s
  uncommented_eq := by
    show '"' :: uncommented false (some '"') (s ++ ['"']) = _
    rw [uncommented_quoted hq]
    rfl
  readInline_eq := readInline_doubleQuoted hq hb
  not_key := .inl rfl

theorem emptyList : Legible (.list []) ['[', ']'] where
  toRowText := .of_plain (by decide) (by decide) (by decide)
  readInline_eq := by
    have ht : trim ['[', ']'] = ['[', ']'] := rfl
    rw [readInline, ht]
    simp [readTrimmed, upToLast?, flowParts_nil, readItems]
  not_key := .inl rfl

theorem emptyMap : Legible (.map []) ['{', '}'] where
  toRowText := .of_plain (by decide) (by decide) (by decide)
  readInline_eq := by
    have ht : trim ['{', '}'] = ['{', '}'] := rfl
    rw [readInline, ht]
    simp [readTrimmed, upToLast?, flowParts_nil, readPairs]
  not_key := .inl rfl

theorem of_isWord {name : String} (h : IsWord name) :
    Legible (resolvePlain name.toList) name.toList where
  toRowText := by
    refine .of_plain h.ne_nil h.noBlank fun c hc => ⟨?_, ?_⟩
    · exact ne_of_not_mem_marks (h.not_mem_marks c hc) (by decide)
    · exact isQuote_of_not_mem_marks (h.not_mem_marks c hc)
  readInline_eq := h.readInline_eq
  not_key := .inr (splitKey?_eq_none fun hc => h.not_mem_marks _ hc (by decide))

end Legible

variable {v : Value} {name : String} {d e n : Nat} {rest : List Row}

theorem readEntry_word (hk : IsWord name) (hv : Legible v s) :
    Leaves (readEntry d ⟨n, e, name.toList ++ ':' :: ' ' :: s⟩ rest)
      (keyText name, v) rest := by
  have hs := hk.splitKey?_append (t := ' ' :: s) (.inr rfl)
  rw [trim_cons_of_isBlank rfl, hv.trim_eq] at hs
  exact readEntry_inline hs hk.readKey_eq hv.ne_nil hv.readInline_eq

theorem readEntry_legible (hk : IsKey name) (hv : Legible v s) :
    Leaves (readEntry d ⟨n, e, name.toList ++ ':' :: ' ' :: s⟩ rest) (name, v) rest := by
  have he : (keyText name, v) = (name, v) := by rw [hk.keyText_eq]
  exact he ▸ readEntry_word hk.isWord hv

theorem readEntry_key {left : List Row} (hk : IsKey name)
    (hb : Leaves (readBelow d rest) v left) :
    Leaves (readEntry d ⟨n, e, name.toList ++ [':']⟩ rest) (name, v) left :=
  readEntry_below (hk.isWord.splitKey?_append (.inl rfl)) hk.readKey_eq hb

/-- An entry behind a dash begins a mapping, two columns further in. -/
theorem readSequenceItem_word {es : List (String × Value)} {left : List Row}
    (hk : IsWord name) (hv : Legible v s)
    (hm : Leaves (readMapping (e + 2) rest) es left) :
    Leaves
      (readSequenceItem d ⟨n, e, '-' :: ' ' :: (name.toList ++ ':' :: ' ' :: s)⟩ rest)
      (.map (collect ((keyText name, v) :: es))) left := by
  obtain ⟨c, t, hc, -⟩ := hk.exists_cons
  have hb : isBlank c = false := hk.noBlank c (hc ▸ List.mem_cons_self)
  have hdash : Row.behindDash ⟨n, e, '-' :: ' ' :: (name.toList ++ ':' :: ' ' :: s)⟩ =
      ⟨n, e + 2, name.toList ++ ':' :: ' ' :: s⟩ := by
    rw [hc]
    exact behindDash_cons hb n e _
  have hs : (splitKey? (name.toList ++ ':' :: ' ' :: s)).isSome = true := by
    rw [hk.splitKey?_append (.inr rfl)]
    rfl
  exact readSequenceItem_entry hdash hs (hk.startsFlow_append _) (hk.isItem_append n _ _)
    (readEntry_word hk hv) hm

theorem readSequenceItem_legible (hv : Legible v s) :
    Leaves (readSequenceItem d ⟨n, e, '-' :: ' ' :: s⟩ rest) v rest := by
  have hb := behindDash_eq hv.toRowText n e
  refine readSequenceItem_inline ?_ ?_ ?_
  · rw [hb]
    exact hv.ne_nil
  · rw [hb]
    exact hv.not_key
  · rw [hb]
    exact hv.readInline_eq

end NotebookService.Metadata
