/-
# `NotebookService.Proofs.Signature.Line` — where the function of a cell stands

A signature says on which line its function stands and how far that line is indented,
and both are used to cut the source later on.  They are right because they are copied
and never computed: `definitionLines` numbers the lines while it goes through them,
`outermost?`  chooses one of its pairs, and `read?`  passes that pair on.  So the line
of a signature is a line of the source, its indentation is what the scan measured there,
and a definition begins behind it.
-/
import NotebookService.Proofs.Text.Trim
import NotebookService.Signature

namespace NotebookService.Signature

open NotebookService.Text

variable {s text rest : List Char} {ls : List (List Char)}

/-! ## The words of a definition -/

theorem after?_eq_some_iff {word : String} :
    after? word s = some rest ↔ s = word.toList ++ rest := by
  unfold after?
  constructor
  · intro h
    split at h
    · rename_i hp
      obtain ⟨t, rfl⟩ := List.isPrefixOf_iff_prefix.1 hp
      rw [← String.length_toList, List.drop_left] at h
      rw [Option.some_inj.1 h]
    · cases h
  · rintro rfl
    rw [if_pos (List.isPrefixOf_iff_prefix.2 (List.prefix_append _ _)), ←
      String.length_toList, List.drop_left]

/-- A definition begins here: `def`, or `async`, blanks and `def`, each `def` with
a space behind it. -/
def Defines (isAsync : Bool) (text rest : List Char) : Prop :=
  isAsync = false ∧ text = "def ".toList ++ rest ∨
    isAsync = true ∧
      ∃ gap, gap ≠ [] ∧ allBlank gap = true ∧
      text = "async".toList ++ gap ++ "def ".toList ++ rest

theorem definition?_def (rest : List Char) :
    definition? ("def ".toList ++ rest) = some (false, rest) := by
  have hd : after? "def " ("def ".toList ++ rest) = some rest := after?_eq_some_iff.2 rfl
  rw [definition?, hd]

theorem definition?_async {gap : List Char} (hgap : gap ≠ [])
    (hblank : allBlank gap = true) (rest : List Char) :
    definition? ("async".toList ++ gap ++ "def ".toList ++ rest) = some (true, rest) := by
  obtain ⟨c, l, rfl⟩ := List.exists_cons_of_ne_nil hgap
  have hc : isBlank c = true := allBlank_iff.1 hblank c List.mem_cons_self
  have hdef : after? "def " ("async".toList ++ (c :: l) ++ "def ".toList ++ rest) =
      none := rfl
  have hasync : after? "async" ("async".toList ++ (c :: l) ++ "def ".toList ++ rest) =
      some (c :: (l ++ "def ".toList ++ rest)) := after?_eq_some_iff.2 (by simp)
  have hrest : after? "def " (trimStart (c :: (l ++ "def ".toList ++ rest))) =
      some rest := by
    rw [List.append_assoc, ← List.cons_append, trimStart_append_of_allBlank hblank]
    exact after?_eq_some_iff.2 rfl
  rw [definition?, hdef]
  simp only [hasync, Option.bind_eq_bind, Option.bind_some, List.head?_cons,
    if_pos hc, hrest]
  rfl

theorem defines_of_definition? {isAsync : Bool}
    (h : definition? text = some (isAsync, rest)) :
    Defines isAsync text rest := by
  unfold definition? at h
  split at h
  · rename_i hd
    cases h
    exact .inl ⟨rfl, after?_eq_some_iff.1 hd⟩
  · obtain ⟨behind, hasync, h⟩ := Option.bind_eq_some_iff.1 h
    obtain ⟨c, hc, h⟩ := Option.bind_eq_some_iff.1 h
    obtain ⟨l, rfl⟩ := List.head?_eq_some_iff.1 hc
    split at h
    · rename_i hblank
      obtain ⟨t, hdef, h⟩ := Option.bind_eq_some_iff.1 h
      cases h
      refine .inr ⟨rfl, (c :: l).takeWhile isBlank, ?_, List.all_takeWhile, ?_⟩
      · rw [List.takeWhile_cons_of_pos hblank]
        exact List.cons_ne_nil _ _
      · calc text
          _ = "async".toList ++ (c :: l) := after?_eq_some_iff.1 hasync
          _ = "async".toList ++ ((c :: l).takeWhile isBlank ++ trimStart (c :: l)) := by
            rw [trimStart, List.takeWhile_append_dropWhile]
          _ = _ := by simp only [after?_eq_some_iff.1 hdef, List.append_assoc]
    · cases h

theorem definition?_eq_some_iff {isAsync : Bool} :
    definition? text = some (isAsync, rest) ↔ Defines isAsync text rest := by
  refine ⟨defines_of_definition?, ?_⟩
  rintro (⟨rfl, rfl⟩ | ⟨rfl, gap, hgap, hblank, rfl⟩)
  · exact definition?_def rest
  · exact definition?_async hgap hblank rest

/-- What a definition begins with stands by itself, whatever follows. -/
theorem defines_iff {isAsync : Bool} :
    Defines isAsync text rest ↔ ∃ w, Defines isAsync w [] ∧ text = w ++ rest := by
  constructor
  · rintro (⟨rfl, rfl⟩ | ⟨rfl, gap, hgap, hblank, rfl⟩)
    · exact ⟨"def ".toList, .inl ⟨rfl, rfl⟩, rfl⟩
    · exact ⟨_, .inr ⟨rfl, gap, hgap, hblank, rfl⟩, by simp⟩
  · rintro ⟨w, ⟨rfl, rfl⟩ | ⟨rfl, gap, hgap, hblank, rfl⟩, rfl⟩
    · exact .inl ⟨rfl, rfl⟩
    · exact .inr ⟨rfl, gap, hgap, hblank, by simp⟩

theorem isWordChar_or_isBlank_of_defines {isAsync : Bool} {w : List Char} {c : Char}
    (h : Defines isAsync w []) (hc : c ∈ w) : (isWordChar c || isBlank c) = true := by
  have hasync : ("async".toList.all fun c => isWordChar c || isBlank c) = true := rfl
  have hdef : ("def ".toList.all fun c => isWordChar c || isBlank c) = true := rfl
  rcases h with ⟨-, rfl⟩ | ⟨-, gap, -, hblank, rfl⟩
  · rw [List.append_nil] at hc
    exact List.all_eq_true.1 hdef c hc
  · simp only [List.append_nil, List.mem_append] at hc
    rcases hc with (hc | hc) | hc
    · exact List.all_eq_true.1 hasync c hc
    · rw [allBlank_iff.1 hblank c hc, Bool.or_true]
    · exact List.all_eq_true.1 hdef c hc

/-! ## The line -/

theorem mem_of_outermost? {ds : List (Nat × Nat)} {d : Nat × Nat}
    (h : outermost? ds = some d) : d ∈ ds := by
  induction ds with
  | nil => cases h
  | cons e ds ih =>
      rw [outermost?] at h
      cases ho : outermost? ds with
      | none =>
          rw [ho] at h
          rw [Option.some_inj.1 h]
          exact List.mem_cons_self
      | some o =>
          simp only [ho] at h
          split at h
          · exact List.mem_cons_of_mem e (ih (ho.trans h))
          · rw [Option.some_inj.1 h]
            exact List.mem_cons_self

theorem exists_of_mem_definitionLines {number n indent : Nat} {opened : Option Char}
    (h : (n, indent) ∈ definitionLines number opened ls) :
    ∃ i l, n = number + i ∧ ls[i]? = some l ∧ indent = indentation l := by
  induction ls generalizing number opened with
  | nil => cases h
  | cons l ls ih =>
      have hrest : (n, indent) ∈ definitionLines (number + 1) (openAfter opened l) ls →
          ∃ i m, n = number + i ∧ (l :: ls)[i]? = some m ∧ indent = indentation m := by
        intro h
        obtain ⟨i, m, hi, hm, hind⟩ := ih h
        exact ⟨i + 1, m, by omega, hm, hind⟩
      rw [definitionLines] at h
      split at h
      · rcases List.mem_cons.1 h with h | h
        · cases h
          exact ⟨0, l, rfl, rfl, rfl⟩
        · exact hrest h
      · exact hrest h

theorem eq_of_read? {isAsync : Bool} {line indent : Nat} {following : List (List Char)}
    {sig : Signature} (h : read? isAsync line indent rest following = some sig) :
    sig.isAsync = isAsync ∧ sig.line = line ∧ sig.indent = indent := by
  unfold read? at h
  dsimp only at h
  split at h
  · cases h
  · obtain ⟨behind, -, h⟩ := Option.bind_eq_some_iff.1 h
    obtain ⟨params, -, h⟩ := Option.bind_eq_some_iff.1 h
    cases h
    exact ⟨rfl, rfl, rfl⟩

/-- The line of a signature is there, it is indented as the signature says, and a
definition begins behind that. -/
theorem exists_line_of_ofLines? {sig : Signature} (h : ofLines? ls = some sig) :
    ∃ l rest, ls[sig.line]? = some l ∧ indentation l = sig.indent ∧
      Defines sig.isAsync (trimStart l) rest := by
  obtain ⟨⟨line, indent⟩, ho, h⟩ := Option.bind_eq_some_iff.1 h
  obtain ⟨⟨isAsync, rest⟩, hd, h⟩ := Option.bind_eq_some_iff.1 h
  obtain ⟨hasync, hline, hindent⟩ := eq_of_read? h
  obtain ⟨i, l, rfl, hl, rfl⟩ := exists_of_mem_definitionLines (mem_of_outermost? ho)
  rw [Nat.zero_add] at hline hd
  rw [List.getD_eq_getElem?_getD, hl, Option.getD_some] at hd
  refine ⟨l, rest, ?_, hindent.symm, ?_⟩
  · rw [hline]
    exact hl
  · rw [hasync]
    exact definition?_eq_some_iff.1 hd

end NotebookService.Signature
