/-
# `NotebookService.Proofs.Metadata.Layout` — what does not matter about lines

A declaration stands in a comment or in a docstring, where its author indents it and
remarks on it as the place asks for.  Two things are therefore no part of what it says.

* How far in it stands: with the same number of spaces in front of every line, the
  entries are the same, and so is the fault that is found and the line that is blamed
  for it (`read_indented`).
* Lines that hold nothing but blanks or a comment, and comments behind what a line holds
  (`read_annotated_iff`).  These move the lines below them, so a fault is found again,
  but blamed on the number that the line has now.

A comment can only be put behind a line without quotes.  In a line with quotes a string
may be open at the end, and the comment would become a part of it.
-/
import NotebookService.Proofs.Metadata.Placed
import NotebookService.Proofs.Metadata.Scalar
import NotebookService.Proofs.Text.Indent
import NotebookService.Proofs.Text.Nesting
import NotebookService.Proofs.Text.WordChar

namespace NotebookService.Metadata

open NotebookService.Text

variable {k n m : Nat} {f : Nat → Nat} {l s t : List Char}

/-! ## Rows that were moved -/

/-- The rows of lines, in another place. -/
def movedRows (k : Nat) (f : Nat → Nat) (x : Except Refusal (List Row)) :
    Except Refusal (List Row) :=
  (x.map fun rows => rows.map (Row.moved k f)).mapError (Refusal.moved f)

theorem readRows_moved (rows : List Row) :
    readRows (rows.map (Row.moved k f)) = (readRows rows).mapError (Refusal.moved f) := by
  cases rows with
  | nil => rfl
  | cons row rest =>
      have hm := readMapping_placed k f row.indent (row :: rest) (outside_nil _)
      rw [placed, List.append_nil, List.map_cons] at hm
      rw [List.map_cons, readRows_cons, readRows_cons, Row.isItem_moved,
        Row.indent_moved, hm]
      split
      · rfl
      · rcases (readMapping row.indent (row :: rest)).result with r | ⟨entries, left⟩
        · rfl
        · cases left <;> rfl

theorem bind_readRows_movedRows (x : Except Refusal (List Row)) :
    (movedRows k f x).bind readRows = (x.bind readRows).mapError (Refusal.moved f) := by
  cases x with
  | error r => rfl
  | ok rows => exact readRows_moved rows

theorem movedRows_cons (n : Nat) (line : List Char) (lines : List (List Char)) :
    movedRows k f (rowsFrom n (line :: lines)) =
      (((rowOfLine n line).map fun row => row.map (Row.moved k f)).mapError
        (Refusal.moved f)).bind fun row =>
        (movedRows k f (rowsFrom (n + 1) lines)).map fun rows => row.toList ++ rows := by
  rw [rowsFrom_cons]
  cases rowOfLine n line with
  | error r => rfl
  | ok row =>
      cases rowsFrom (n + 1) lines with
      | error r => rfl
      | ok rows => cases row <;> rfl

/-! ## Indentation -/

theorem dropWhile_space_shifted (k : Nat) (l : List Char) :
    (shifted k l).dropWhile (· = ' ') = l.dropWhile (· = ' ') :=
  List.dropWhile_append_of_pos (by simp)

theorem rowOfLine_shifted (k n : Nat) (l : List Char) :
    rowOfLine n (shifted k l) = (rowOfLine n l).map fun row =>
      row.map (Row.moved k id) := by
  have hu : uncommented true none (shifted k l) = shifted k (uncommented true none l) :=
    uncommented_spaces k l
  rw [rowOfLine, rowOfLine, hu]
  generalize uncommented true none l = u
  by_cases hb : allBlank u = true
  · have hs : trimEnd (shifted k u) = [] :=
      trimEnd_eq_nil.2 (by rw [allBlank_shifted, hb])
    simp [hs, trimEnd_eq_nil.2 hb, Except.map]
  · have hne : trimEnd u ≠ [] := mt trimEnd_eq_nil.1 hb
    have hl : ((trimEnd u).dropWhile (· = ' ')).length ≤ (trimEnd u).length :=
      (List.dropWhile_sublist _).length_le
    have hw : (shifted k (trimEnd u)).length = k + (trimEnd u).length := by simp [shifted]
    have hsne : shifted k (trimEnd u) ≠ [] := by simp [shifted, hne]
    rw [trimEnd_shifted k hb]
    simp only [dropWhile_space_shifted, List.isEmpty_eq_false_iff.2 hne,
      List.isEmpty_eq_false_iff.2 hsne, hw]
    split
    · rfl
    · split
      · rfl
      · simp only [Except.map, Option.map, Row.moved, id]
        congr 3
        omega

theorem rowsFrom_shifted (k n : Nat) (ls : List (List Char)) :
    rowsFrom n (ls.map (shifted k)) = movedRows k id (rowsFrom n ls) := by
  induction ls generalizing n with
  | nil => rfl
  | cons l ls ih =>
      rw [List.map_cons, movedRows_cons, rowsFrom_cons, ih, rowOfLine_shifted]
      cases rowOfLine n l <;> rfl

/-- The same number of spaces in front of every line changes neither the entries nor
what is wrong, nor where. -/
theorem read_indented (k firstLine : Nat) (lines : List String) :
    read firstLine (lines.map fun l => String.ofList (List.replicate k ' ') ++ l) =
      read firstLine lines := by
  have hl :
      (lines.map fun l => String.ofList (List.replicate k ' ') ++ l).map String.toList =
        (lines.map String.toList).map (shifted k) := by
    simp [shifted]
  have hid (x : Except Refusal (List (String × Value))) :
      x.mapError (Refusal.moved id) = x := by
    cases x <;> rfl
  rw [read_eq, read_eq, hl, rowsFrom_shifted, bind_readRows_movedRows, hid]

/-! ## Comments -/

theorem uncommented_blanks (h : allBlank s = true) (hne : s ≠ []) (b : Bool)
    (t : List Char) :
    uncommented b none (s ++ t) = s ++ uncommented true none t := by
  induction s generalizing b with
  | nil => exact absurd rfl hne
  | cons c s ih =>
      obtain ⟨hc, hs⟩ := Bool.and_eq_true_iff.1 h
      have hm := not_mem_marks_of_isBlank hc
      rw [List.cons_append,
        uncommented_cons (ne_of_not_mem_marks hm (by decide))
        (isQuote_of_not_mem_marks hm), hc]
      cases s with
      | nil => rfl
      | cons d s =>
          rw [ih hs (List.cons_ne_nil d s), List.cons_append, List.cons_append,
            List.cons_append]

theorem uncommented_hash (t : List Char) : uncommented true none ('#' :: t) = [] := rfl

/-- A line that holds nothing: blanks only, or a comment behind them. -/
inductive IsSilent : List Char → Prop where
  | blank {l : List Char} (h : allBlank l = true) : IsSilent l
  | comment {s : List Char} (h : allBlank s = true) (t : List Char) :
      IsSilent (s ++ '#' :: t)

theorem IsSilent.rowOfLine_eq (h : IsSilent l) (n : Nat) : rowOfLine n l = .ok none := by
  have hu : allBlank (uncommented true none l) = true := by
    cases h with
    | blank h =>
        rcases eq_or_ne l [] with rfl | hne
        · rfl
        · have hu := uncommented_blanks h hne true []
          rw [List.append_nil, uncommented, List.append_nil] at hu
          rw [hu, h]
    | @comment s h t =>
        rcases eq_or_ne s [] with rfl | hne
        · rfl
        · rw [uncommented_blanks h hne, uncommented_hash, List.append_nil, h]
  simp [rowOfLine, trimEnd_eq_nil.2 hu]

/-- A row is made of what is left of its line behind the comment and the
blanks at the end. -/
theorem rowOfLine_congr
    (h : trimEnd (uncommented true none s) = trimEnd (uncommented true none t))
    (n : Nat) :
    rowOfLine n s = rowOfLine n t := by
  rw [rowOfLine, rowOfLine, h]

theorem trimEnd_cons_congr (h : trimEnd s = trimEnd t) (c : Char) :
    trimEnd (c :: s) = trimEnd (c :: t) := by
  rw [trimEnd, trimEnd, dropEndWhile, dropEndWhile, ← trimEnd, ← trimEnd, h]

/-- Outside of quotes a comment takes with it no more than the blanks in front of it. -/
theorem trimEnd_uncommented_remark (hl : Unquoted l) (hs : allBlank s = true)
    (hne : s ≠ []) (b : Bool) (t : List Char) :
    trimEnd (uncommented b none (l ++ (s ++ '#' :: t))) =
      trimEnd (uncommented b none l) := by
  induction l generalizing b with
  | nil =>
      rw [List.nil_append, uncommented_blanks hs hne, uncommented_hash, List.append_nil,
        trimEnd_eq_nil.2 hs]
      rfl
  | cons c l ih =>
      obtain ⟨hc, hl⟩ := List.forall_mem_cons.1 hl
      rw [List.cons_append, uncommented, uncommented]
      simp only [hc, Bool.and_false, Bool.false_eq_true, if_false]
      split
      · rfl
      · exact trimEnd_cons_congr (ih hl (isBlank c)) c

/-- The second list is the first one with lines that hold nothing between its lines, and
comments behind lines without quotes. -/
inductive Annotated : List String → List String → Prop where
  | nil : Annotated [] []
  | line {ls ms : List String} (l : String) (h : Annotated ls ms) :
      Annotated (l :: ls) (l :: ms)
  | silent {ls ms : List String} {l : String} (hl : IsSilent l.toList)
      (h : Annotated ls ms) : Annotated ls (l :: ms)
  | remark {ls ms : List String} {l blanks : String} (hl : Unquoted l.toList)
      (hb : allBlank blanks.toList = true)
      (hne : blanks ≠ "") (text : String) (h : Annotated ls ms) :
      Annotated (l :: ls) ((l ++ blanks ++ "#" ++ text) :: ms)

/-- Without their numbers, rows do not know on which lines they stood. -/
theorem rowOfLine_unnumbered (n m : Nat) (l : List Char) :
    ((rowOfLine m l).map fun row => row.map (Row.moved 0 fun _ => 0)).mapError
      (Refusal.moved fun _ => 0) =
      ((rowOfLine n l).map fun row => row.map (Row.moved 0 fun _ => 0)).mapError
      (Refusal.moved fun _ => 0) := by
  rw [rowOfLine, rowOfLine]
  dsimp only
  split
  · rfl
  · split
    · rfl
    · rfl

theorem movedRows_annotated {ls ms : List String} (h : Annotated ls ms) (n m : Nat) :
    movedRows 0 (fun _ => 0) (rowsFrom m (ms.map String.toList)) =
      movedRows 0 (fun _ => 0) (rowsFrom n (ls.map String.toList)) := by
  induction h generalizing n m with
  | nil => rfl
  | line l _ ih =>
      rw [List.map_cons, List.map_cons, movedRows_cons, movedRows_cons, ih (n + 1),
        rowOfLine_unnumbered n]
  | silent hl _ ih =>
      rw [List.map_cons, movedRows_cons, hl.rowOfLine_eq, ih n]
      cases rowsFrom n _ <;> rfl
  | @remark _ _ l blanks hl hb hne text _ ih =>
      have hblanks : blanks.toList ≠ [] := fun he => hne (String.toList_eq_nil_iff.1 he)
      have hline : (l ++ blanks ++ "#" ++ text).toList =
          l.toList ++ (blanks.toList ++ '#' :: text.toList) := by
        simp
      have hrow : rowOfLine m (l ++ blanks ++ "#" ++ text).toList =
          rowOfLine m l.toList := by
        rw [hline]
        exact rowOfLine_congr (trimEnd_uncommented_remark hl hb hblanks true _) m
      rw [List.map_cons, List.map_cons, movedRows_cons, movedRows_cons, hrow, ih (n + 1),
        rowOfLine_unnumbered n]

theorem mapError_read_annotated {ls ms : List String} (h : Annotated ls ms) (n m : Nat) :
    (read m ms).mapError (Refusal.moved fun _ => 0) =
      (read n ls).mapError (Refusal.moved fun _ => 0) := by
  have hread (n : Nat) (ls : List String) :
    (read n ls).mapError (Refusal.moved fun _ => 0) =
      ((movedRows 0 (fun _ => 0) (rowsFrom n (ls.map String.toList))).bind readRows).map
        fun entries => ⟨collect entries⟩ := by
    rw [read_eq, bind_readRows_movedRows]
    cases (rowsFrom n (ls.map String.toList)).bind readRows <;> rfl
  rw [hread, hread, movedRows_annotated h n]

theorem Annotated.refl (lines : List String) : Annotated lines lines := by
  induction lines with
  | nil => exact .nil
  | cons l lines ih => exact .line l ih

/-- Where the numbers of the lines begin is of no account. -/
theorem read_renumbered {lines : List String} {entries : Metadata}
    (h : read n lines = .ok entries) (m : Nat) :
    read m lines = .ok entries := by
  have hr := mapError_read_annotated (.refl lines) n m
  rw [h] at hr
  exact mapError_eq_ok.1 hr

/-- Comments and lines that hold nothing leave the entries as they are, and so does the
number of the first line. -/
theorem read_annotated_iff {lines annotated : List String} (h : Annotated lines annotated)
    (n m : Nat) (entries : Metadata) :
    read m annotated = .ok entries ↔ read n lines = .ok entries := by
  have hr := mapError_read_annotated h n m
  rw [← mapError_eq_ok, hr, mapError_eq_ok]

theorem read_annotated_iff_listed :
    Annotated ["a: 1", "b:", "- c: d"] ["# top", "a: 1 \t# 'one", "  ", "b:",
      "    # - none", "- c: d"] ∧
      read 7 ["# top", "a: 1 \t# 'one", "  ", "b:", "    # - none", "- c: d"] =
        .ok ⟨[("a", .int 1), ("b", .list [.map [("c", .str "d")]])]⟩ := by
  have hremark : Unquoted "a: 1".toList := by decide
  have hblanks : allBlank " \t".toList = true := by decide
  have h : Annotated ["a: 1", "b:", "- c: d"] ["# top", "a: 1 \t# 'one", "  ", "b:",
      "    # - none", "- c: d"] :=
    .silent (.comment (s := []) rfl _)
      (.remark hremark hblanks (by decide) " 'one"
        (.silent (.blank rfl)
          (.line "b:" (.silent (.comment (s := [' ', ' ', ' ', ' ']) rfl _)
            (.line "- c: d" .nil)))))
  have ha : IsKey "a" := ⟨by decide, rfl, rfl, by decide⟩
  have hb : IsKey "b" := ⟨by decide, rfl, rfl, by decide⟩
  have hc : IsWord "c" := ⟨by decide, rfl⟩
  have hone : IsWord "1" := ⟨by decide, rfl⟩
  have hd : IsWord "d" := ⟨by decide, rfl⟩
  have hrows : rowsFrom 1 (["a: 1", "b:", "- c: d"].map String.toList) =
      .ok [⟨1, 0, "a".toList ++ ':' :: ' ' :: ['1']⟩, ⟨2, 0, "b".toList ++ [':']⟩,
        ⟨3, 0, '-' :: ' ' :: ("c".toList ++ ':' :: ' ' :: ['d'])⟩] := rfl
  have hitem : Leaves (readSequenceItem 0
      ⟨3, 0, '-' :: ' ' :: ("c".toList ++ ':' :: ' ' :: ['d'])⟩ [])
      (.map [("c", .str "d")]) [] :=
    readSequenceItem_word hc (.of_isWord hd) (readMapping_outside (outside_nil 2))
  have hitems := readSequence_item (d := 0) rfl rfl hitem
    (readSequence_outside (outside_nil 0))
  have hbelow := readBelow_sequence (Nat.le_refl 0) rfl hitems
  have hread := read_of_readRows hrows (readRows_of_readMapping rfl
    (readMapping_entry rfl rfl (readEntry_legible ha (.of_isWord hone))
      (readMapping_entry rfl rfl (readEntry_key hb hbelow)
        (readMapping_outside (outside_nil 0)))))
  exact ⟨h, (read_annotated_iff h 1 7 _).2 hread⟩

end NotebookService.Metadata
