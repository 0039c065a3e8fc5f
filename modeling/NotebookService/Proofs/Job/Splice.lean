/-
# `NotebookService.Proofs.Job.Splice` — a decorator is one more line

The decorator of a job is put among the lines of its body by a line number and by a
number of columns, both taken from the signature.  `splice?`  does the same and looks
before each step whether there is such a line, and whether a character begins at such a
column.  It never has to give up (`splice?_eq`), since the signature of a source says
only what its lines say.

The lines of the source stay as they are, and one is put in: above the function and
those lines right above it that begin with `@` at its column.  What is between the new
line and the function is thus the function's own.
-/
import NotebookService.Job
import NotebookService.Proofs.Signature.Line
import NotebookService.Proofs.Text.Lines

namespace NotebookService

open NotebookService.Text

/-! ## Columns -/

namespace Text

/-- The first `n` columns of a line, if the column behind them is a character's first or
the end of the line. -/
def columns? (n : Nat) : List Char → Option (List Char)
  | [] => if n = 0 then some [] else none
  | c :: l =>
    if n = 0 then some []
    else if c.utf8Size ≤ n then (columns? (n - c.utf8Size) l).map (c :: ·)
    else none

theorem columns?_zero (l : List Char) : columns? 0 l = some [] := by
  cases l <;> rfl

theorem columns?_cons (n : Nat) (c : Char) (l : List Char) :
    columns? (c.utf8Size + n) (c :: l) = (columns? n l).map (c :: ·) := by
  have hc := c.utf8Size_pos
  rw [columns?, if_neg (by omega), if_pos (by omega), Nat.add_sub_cancel_left]

theorem columns?_append (s t : List Char) : columns? (width s) (s ++ t) = some s := by
  induction s with
  | nil => exact columns?_zero t
  | cons c s ih => rw [List.cons_append, width, columns?_cons, ih, Option.map_some]

theorem columns?_indentation (l : List Char) :
    columns? (indentation l) l = some (l.takeWhile isBlank) := by
  have h := columns?_append (l.takeWhile isBlank) (l.dropWhile isBlank)
  rwa [List.takeWhile_append_dropWhile] at h

end Text

namespace Job

variable {ls : List (List Char)} {s : Signature}

/-! ## The place -/

/-- The line begins with `@` at a column, behind nothing but blanks. -/
def Marked (indent : Nat) (l : List Char) : Prop :=
  ∃ margin rest, l = margin ++ '@' :: rest ∧ allBlank margin = true ∧
    width margin = indent

theorem isDecorator_iff {indent : Nat} {l : List Char} :
    isDecorator indent l = true ↔ Marked indent l := by
  rw [isDecorator, Bool.and_eq_true, decide_eq_true_iff, decide_eq_true_iff]
  constructor
  · rintro ⟨hh, hi⟩
    obtain ⟨rest, hr⟩ := List.head?_eq_some_iff.1 hh
    refine ⟨l.takeWhile isBlank, rest, ?_, List.all_takeWhile, hi⟩
    rw [← hr, trimStart, List.takeWhile_append_dropWhile]
  · rintro ⟨margin, rest, rfl, hb, rfl⟩
    have ht : (margin ++ '@' :: rest).takeWhile isBlank = margin := by
      rw [List.takeWhile_append_of_pos (allBlank_iff.1 hb),
        List.takeWhile_cons_of_neg (by decide), List.append_nil]
    rw [trimStart_append_of_allBlank hb, trimStart_cons_of_not rfl, indentation, ht]
    exact ⟨rfl, rfl⟩

instance (indent : Nat) (l : List Char) : Decidable (Marked indent l) :=
  decidable_of_iff _ isDecorator_iff

/-- The lines right above the function that begin with `@` at its column. -/
def ownLines (ls : List (List Char)) (s : Signature) : List (List Char) :=
  (ls.take s.line).rtakeWhile (isDecorator s.indent)

/-- The lines above the function and above its own ones. -/
def linesAbove (ls : List (List Char)) (s : Signature) : List (List Char) :=
  (ls.take s.line).rdropWhile (isDecorator s.indent)

theorem linesAbove_append_ownLines (ls : List (List Char)) (s : Signature) :
    linesAbove ls s ++ ownLines ls s = ls.take s.line :=
  List.rdropWhile_append_rtakeWhile

theorem linesAbove_prefix_lines (ls : List (List Char)) (s : Signature) :
    linesAbove ls s <+: ls :=
  (List.rdropWhile_prefix _ _).trans (List.take_prefix _ _)

theorem isDecorator_of_mem_ownLines {l : List Char} (h : l ∈ ownLines ls s) :
    isDecorator s.indent l = true :=
  List.mem_rtakeWhile_imp h

theorem length_linesAbove_le (ls : List (List Char)) (s : Signature) :
    (linesAbove ls s).length ≤ s.line := by
  have h := congrArg List.length (linesAbove_append_ownLines ls s)
  rw [List.length_append, List.length_take] at h
  omega

/-- From the place of the decorator to the function there are only the
function's own lines. -/
theorem isDecorator_of_le {i : Nat} {l : List Char} (hl : ls[i]? = some l)
    (hi : (linesAbove ls s).length ≤ i) (hs : i < s.line) :
    isDecorator s.indent l = true := by
  have ht : (ls.take s.line)[i]? = some l := by rw [List.getElem?_take_of_lt hs, hl]
  rw [← linesAbove_append_ownLines, List.getElem?_append_right hi] at ht
  exact isDecorator_of_mem_ownLines (List.mem_of_getElem? ht)

/-! ## The new line -/

theorem insertIdx_append {α : Type} (as bs : List α) (x : α) :
    (as ++ bs).insertIdx as.length x = as ++ x :: bs := by
  induction as with
  | nil => rfl
  | cons a as ih =>
      rw [List.cons_append, List.length_cons, List.insertIdx_succ_cons, ih,
        List.cons_append]

theorem insertIdx_eq {α : Type} {as : List α} {n : Nat} (h : n ≤ as.length) (x : α) :
    as.insertIdx n x = as.take n ++ x :: as.drop n := by
  have hi := insertIdx_append (as.take n) (as.drop n) x
  rwa [List.take_append_drop, List.length_take_of_le h] at hi

/-- The margin of the new line is that of the function. -/
def decoratorLine (ls : List (List Char)) (s : Signature) (decorator : List Char) :
    List Char :=
  (ls.getD s.line []).takeWhile isBlank ++ '@' :: decorator

theorem decoratorLine_eq {l : List Char} (hl : ls[s.line]? = some l)
    (decorator : List Char) :
    decoratorLine ls s decorator = l.takeWhile isBlank ++ '@' :: decorator := by
  rw [decoratorLine, List.getD_eq_getElem?_getD, hl, Option.getD_some]

theorem decorate_eq (ls : List (List Char)) (s : Signature) (decorator : List Char) :
    decorate ls s decorator =
      ls.insertIdx (linesAbove ls s).length (decoratorLine ls s decorator) := by
  have hlen : (ls.take s.line).length - (ownLines ls s).length =
      (linesAbove ls s).length := by
    rw [← linesAbove_append_ownLines, List.length_append, Nat.add_sub_cancel]
  have habove : (ls.take s.line).take (linesAbove ls s).length = linesAbove ls s := by
    rw [← linesAbove_append_ownLines, List.take_left]
  have hls : linesAbove ls s ++ (ownLines ls s ++ ls.drop s.line) = ls := by
    rw [← List.append_assoc, linesAbove_append_ownLines, List.take_append_drop]
  calc decorate ls s decorator
    _ = (ls.take s.line).take ((ls.take s.line).length - (ownLines ls s).length) ++
          decoratorLine ls s decorator :: ownLines ls s ++ ls.drop s.line := rfl
    _ = linesAbove ls s ++ decoratorLine ls s decorator ::
      (ownLines ls s ++ ls.drop s.line) := by
      rw [hlen, habove, List.append_assoc, List.cons_append]
    _ = (linesAbove ls s ++ (ownLines ls s ++ ls.drop s.line)).insertIdx
      (linesAbove ls s).length
          (decoratorLine ls s decorator) := (insertIdx_append _ _ _).symm
    _ = ls.insertIdx (linesAbove ls s).length (decoratorLine ls s decorator) := by
      rw [hls]

/-! ## Every step looked at -/

/-- The line above which the decorator goes, looked for from line `n` upwards; none when
a line is missing. -/
def placeAbove? (ls : List (List Char)) (indent : Nat) : Nat → Option Nat
  | 0 => some 0
  | n + 1 => do
    let l ← ls[n]?
    if isDecorator indent l then placeAbove? ls indent n else some (n + 1)

/-- The lines with the decorator in them; none when a line is missing, when a
character of the function's line goes across its column, or when the decorator would
go behind the end. -/
def splice? (ls : List (List Char)) (s : Signature) (decorator : List Char) :
    Option (List (List Char)) := do
  let place ← placeAbove? ls s.indent s.line
  let l ← ls[s.line]?
  let margin ← columns? s.indent l
  if place ≤ ls.length
  then some (ls.take place ++ (margin ++ '@' :: decorator) :: ls.drop place) else none

theorem placeAbove?_eq {n indent : Nat} (hn : n ≤ ls.length) :
    placeAbove? ls indent n =
      some ((ls.take n).rdropWhile (isDecorator indent)).length := by
  induction n with
  | zero => rfl
  | succ n ih =>
      have hl : ls[n]? = some ls[n] := List.getElem?_eq_getElem hn
      rw [placeAbove?, hl, ← List.take_append_getElem hn, Option.bind_eq_bind,
        Option.bind_some]
      split
      · rename_i hd
        rw [ih (by omega), List.rdropWhile_concat_pos _ _ _ hd]
      · rename_i hd
        rw [List.rdropWhile_concat_neg _ _ _ hd, List.length_append, List.length_take,
          List.length_singleton, Nat.min_eq_left (by omega)]

theorem splice?_eq (h : Signature.ofLines? ls = some s) (decorator : List Char) :
    splice? ls s decorator = some (decorate ls s decorator) := by
  obtain ⟨l, rest, hl, hi, -⟩ := Signature.exists_line_of_ofLines? h
  obtain ⟨hlt, -⟩ := List.getElem?_eq_some_iff.1 hl
  have hplace : placeAbove? ls s.indent s.line = some (linesAbove ls s).length :=
    placeAbove?_eq hlt.le
  have hmargin : columns? s.indent l = some (l.takeWhile isBlank) := by
    rw [← hi]
    exact columns?_indentation l
  have hle : (linesAbove ls s).length ≤ ls.length :=
    (linesAbove_prefix_lines ls s).length_le
  rw [splice?, hplace, hl, decorate_eq, decoratorLine_eq hl, insertIdx_eq hle]
  simp only [Option.bind_eq_bind, Option.bind_some, hmargin, if_pos hle]

/-! ## The source -/

theorem mem_decorate {decorator l : List Char} (h : l ∈ decorate ls s decorator) :
    l = decoratorLine ls s decorator ∨ l ∈ ls := by
  rw [decorate_eq] at h
  exact (List.mem_insertIdx (linesAbove_prefix_lines ls s).length_le).1 h

/-- The text with the decorator in it comes apart into the lines that it was made of. -/
theorem splitAtFeeds_decorateSource {source decorator : String}
    (h : Signature.ofSource? source = some s) (hd : '\n' ∉ decorator.toList) :
    splitAtFeeds (decorateSource source s decorator).toList =
      decorate (lines source.toList) s decorator.toList := by
  obtain ⟨m, rest, hm, -, -⟩ := Signature.exists_line_of_ofLines? h
  rw [decorateSource, String.toList_ofList]
  refine splitAtFeeds_unlines ?_ ?_
  · rw [decorate_eq, insertIdx_eq (linesAbove_prefix_lines _ s).length_le]
    simp
  · intro l hl hn
    rcases mem_decorate hl with rfl | hl
    · rw [decoratorLine_eq hm] at hn
      rcases List.mem_append.1 hn with hn | hn
      · exact not_mem_of_mem_lines (List.mem_of_getElem? hm)
          ((List.takeWhile_sublist _).subset hn)
      · rcases List.mem_cons.1 hn with hn | hn
        · cases hn
        · exact hd hn
    · exact not_mem_of_mem_lines hl hn

/-- What a decorator does to a source in which a function was found: the line of the
function is there, with blanks that fill the signature's columns and the definition
behind them, and the decorated source is that source with one line more.  The new line
has the function's margin and stands above the function, and between the two there are
only lines that begin with `@` at the function's column.  No step on the way misses its
line or cuts a character. -/
theorem decorateSource_inserts_line {source : String} {s : Signature}
    (h : Signature.ofSource? source = some s) {decorator : String}
    (hd : '\n' ∉ decorator.toList) :
    let ls := lines source.toList
    ∃ margin text rest place,
      ls[s.line]? = some (margin ++ text) ∧ allBlank margin = true ∧
      width margin = s.indent ∧
      Signature.Defines s.isAsync text rest ∧
      splice? ls s decorator.toList =
        some (ls.insertIdx place (margin ++ '@' :: decorator.toList)) ∧
      splitAtFeeds (decorateSource source s decorator).toList =
        ls.insertIdx place (margin ++ '@' :: decorator.toList) ∧
      place ≤ s.line ∧
      ∀ i l, place ≤ i → i < s.line → ls[i]? = some l → Marked s.indent l := by
  intro ls
  obtain ⟨l, rest, hl, hi, hdef⟩ := Signature.exists_line_of_ofLines? h
  have hline := decoratorLine_eq hl decorator.toList
  refine ⟨l.takeWhile isBlank, trimStart l, rest, (linesAbove ls s).length, ?_,
    List.all_takeWhile, hi, hdef, ?_, ?_, length_linesAbove_le ls s, ?_⟩
  · rw [trimStart, List.takeWhile_append_dropWhile]
    exact hl
  · rw [splice?_eq h, decorate_eq, hline]
  · rw [splitAtFeeds_decorateSource h hd, decorate_eq, hline]
  · intro i m hp hm hget
    exact isDecorator_iff.1 (isDecorator_of_le hget hp hm)

/-- A function in a class, below a decorator, where the margin is one
blank of three columns. -/
theorem decorateSource_inserts_line_wide :
    let source := "class C:\n\u3000@log\n\u3000def f(): pass"
    let s : Signature := ⟨"f", [], false, 2, 3⟩
    Signature.ofSource? source = some s ∧ '\n' ∉ "job".toList ∧
      ∃ margin place, width margin = 3 ∧ place ≤ 2 ∧
        splitAtFeeds (decorateSource source s "job").toList =
          (lines source.toList).insertIdx place (margin ++ '@' :: "job".toList) := by
  intro source s
  have hs : Signature.ofSource? source = some s := by decide +kernel
  have hd : '\n' ∉ "job".toList := by decide
  obtain ⟨margin, text, rest, place, -, -, hw, -, -, hsplit, hp, -⟩ :=
    decorateSource_inserts_line hs hd
  exact ⟨hs, hd, margin, place, hw, hp, hsplit⟩

end Job

end NotebookService
