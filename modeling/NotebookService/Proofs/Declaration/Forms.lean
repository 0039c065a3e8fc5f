/-
# `NotebookService.Proofs.Declaration.Forms` — the ways to write one declaration

A declaration can be written as `#` comment lines or between two lines of three quotes,
of either kind.  `forms_agree` says that the form leaves no trace: the splitter gives
the lines without the blanks at their ends, without blank ones and without the
indentation that they share, and the body as it stands.  The right-hand side names
neither the form nor the number of spaces that all lines were moved by.

The two forms are read by different halves of the splitter, and they meet before the
shared indentation goes: either half gives the written lines with nothing but the blanks
at their ends taken off.  For a comment line this is the rule that one space behind the
marker is a separator; a blank line loses even that space to trimming, and comes out
empty like the blank line of a block.

What is asked of the lines is what the form needs to be read at all: a line of a block
must not hold the block's delimiter, and the body must not go on where comments stop.
-/
import NotebookService.Cell
import NotebookService.Proofs.Text.Indent
import NotebookService.Proofs.Text.Lines

namespace NotebookService.Declaration

open NotebookService.Text

/-! ## Delimiters -/

/-- Three quotes. -/
def Triple.delimiter (t : Triple) : List Char := [t.mark, t.mark, t.mark]

theorem Triple.isBlank_mark (t : Triple) : isBlank t.mark = false := by
  cases t <;> rfl

theorem Triple.delimiter_prefix_iff {t : Triple} {a b c : Char} {s : List Char} :
    t.delimiter <+: a :: b :: c :: s ↔ a = t.mark ∧ b = t.mark ∧ c = t.mark := by
  simp [Triple.delimiter, List.cons_prefix_cons, eq_comm]

theorem Triple.split?_eq_none {t : Triple} {l : List Char} (h : ¬ t.delimiter <:+: l) :
    t.split? l = none := by
  induction l with
  | nil => rfl
  | cons a s ih =>
      rw [List.infix_cons_iff, not_or] at h
      match s with
      | [] => rfl
      | [_] => rfl
      | b :: c :: rest =>
          rw [Triple.delimiter_prefix_iff] at h
          rw [Triple.split?, if_neg h.1, ih h.2]
          rfl

theorem Triple.split?_delimiter (t : Triple) : t.split? t.delimiter = some ([], []) := by
  cases t <;> rfl

theorem openingTriple?_eq_none {s : List Char} (h : ∀ t : Triple, ¬ t.delimiter <+: s) :
    openingTriple? s = none := by
  unfold openingTriple?
  split
  · rename_i a b c rest
    have hd := h .double
    have hs := h .single
    rw [Triple.delimiter_prefix_iff] at hd hs
    exact (if_neg hd).trans (if_neg hs)
  · rfl

theorem openingTriple?_hash (s : List Char) : openingTriple? ('#' :: s) = none := by
  refine openingTriple?_eq_none fun t ht => ?_
  have hm : t.mark = '#' := (List.cons_prefix_cons.1 ht).1
  cases t <;> exact absurd hm (by decide)

theorem openingTriple?_delimiter (t : Triple) :
    openingTriple? t.delimiter = some (t, []) := by
  cases t <;> rfl

/-- A line of three quotes has no carriage return to lose. -/
theorem eq_delimiter_of_readBack {t : Triple} {l : List Char}
    (h : ReadBack l t.delimiter) :
    l = t.delimiter := by
  rcases h with rfl | rfl
  · rfl
  · cases t <;> rfl

/-! ## Comment lines -/

theorem trim_comment (x : List Char) :
    trim ('#' :: ' ' :: x) = if allBlank x then ['#'] else '#' :: ' ' :: trimEnd x := by
  rw [trim_cons_of_not rfl]
  split
  · rename_i h
    exact trimEnd_append_of_allBlank (s := ['#']) (by simpa using h)
  · rename_i h
    rw [trimEnd_cons_of_not (by simpa using h), trimEnd_cons_of_not h]

theorem commentText_trim_comment (x : List Char) :
    commentText (trim ('#' :: ' ' :: x)) = trimEnd x := by
  rw [trim_comment]
  split
  · rename_i h
    rw [trimEnd_eq_nil.2 h]
    rfl
  · exact trimEnd_trimEnd

theorem head?_trim_comment (x : List Char) :
    (trim ('#' :: ' ' :: x)).head? = some '#' := by
  rw [trim_comment]
  split <;> rfl

theorem splitDeclaring_comments {ls xs : List (List Char)}
    (h : List.Forall₂ ReadBack ls (xs.map fun x => '#' :: ' ' :: x))
    (rest : List (List Char)) :
    splitDeclaring (ls ++ rest) =
      (xs.map trimEnd ++ (splitDeclaring rest).1, (splitDeclaring rest).2) := by
  induction xs generalizing ls with
  | nil =>
      cases h
      rfl
  | cons x xs ih =>
      cases h with
      | @cons l _ ls _ hl hls =>
          have ht : openingTriple? (trim l) = none := by
            rw [hl.trim_eq, trim_comment]
            split <;> exact openingTriple?_hash _
          rw [List.cons_append, splitDeclaring, ht, hl.trim_eq,
            if_pos (head?_trim_comment x), ih hls, commentText_trim_comment]
          rfl

/-! ## Blocks -/

theorem splitBlock_block {t : Triple} {ls xs : List (List Char)}
    (ha : ∀ x ∈ xs, ¬ t.delimiter <:+: x)
    (h : List.Forall₂ ReadBack ls (xs ++ [t.delimiter])) (rest : List (List Char)) :
    splitBlock t (ls ++ rest) = (xs.map trimEnd, rest) := by
  induction xs generalizing ls with
  | nil =>
      cases h with
      | cons hl hls =>
          cases hls
          rw [eq_delimiter_of_readBack hl, List.cons_append, splitBlock,
            t.split?_delimiter]
          rfl
  | cons x xs ih =>
      cases h with
      | @cons l _ ls _ hl hls =>
          have hn : t.split? l = none := by
            obtain ⟨u, rfl, -⟩ := hl.exists_append
            refine Triple.split?_eq_none fun hd => ?_
            exact ha _ List.mem_cons_self (hd.trans (List.prefix_append l u).isInfix)
          rw [List.cons_append, splitBlock, hn, hl.trimEnd_eq,
            ih (fun y hy => ha y (List.mem_cons_of_mem x hy)) hls]
          rfl

theorem trim_delimiter (t : Triple) : trim t.delimiter = t.delimiter := by
  cases t <;> rfl

theorem splitDeclaring_delimiter (t : Triple) (ls : List (List Char)) :
    splitDeclaring (t.delimiter :: ls) = splitBlock t ls := by
  have hs : t.split? [] = none := rfl
  rw [splitDeclaring, trim_delimiter, openingTriple?_delimiter]
  simp only [hs]
  rfl

/-! ## The body -/

/-- A declaration does not go on with these lines: the first is neither a comment nor
begins with three quotes. -/
def StartsBody (body : List (List Char)) : Prop :=
  ∀ l ∈ body.head?, ¬ ['#'] <+: trim l ∧ ∀ t : Triple, ¬ t.delimiter <+: trim l

theorem splitDeclaring_body {body : List (List Char)} (h : StartsBody body) :
    splitDeclaring body = ([], body) := by
  cases body with
  | nil => rfl
  | cons l ls =>
      obtain ⟨hc, ht⟩ := h l rfl
      have hn : (trim l).head? ≠ some '#' := by
        intro he
        obtain ⟨s, hs⟩ := List.head?_eq_some_iff.1 he
        exact hc (hs ▸ List.cons_prefix_cons.2 ⟨rfl, List.nil_prefix⟩)
      rw [splitDeclaring, openingTriple?_eq_none ht]
      exact if_neg hn

theorem StartsBody.readBack {body : List (List Char)} (h : StartsBody body) :
    StartsBody (linesOfPieces body) := by
  intro l hl
  obtain ⟨m, hm, hr⟩ := exists_head?_of_linesOfPieces hl
  rw [hr.trim_eq]
  exact h m hm

/-! ## The two forms -/

/-- The ways to write declaration lines. -/
inductive Form where
  | comments
  | block (t : Triple)

def Form.write : Form → List (List Char) → List (List Char)
  | .comments, ls => ls.map fun l => '#' :: ' ' :: l
  | .block t, ls => t.delimiter :: (ls ++ [t.delimiter])

/-- The form can hold the lines: in a block none of them closes it. -/
def Form.Admits : Form → List (List Char) → Prop
  | .comments, _ => True
  | .block t, ls => ∀ l ∈ ls, ¬ t.delimiter <:+: l

theorem Triple.not_infix_shifted {t : Triple} {l : List Char} (h : ¬ t.delimiter <:+: l)
    (k : Nat) :
    ¬ t.delimiter <:+: shifted k l := by
  induction k with
  | zero => exact h
  | succ k ih =>
      have hp : ¬ t.delimiter <+: shifted (k + 1) l := by
        intro hp
        have he : t.mark = ' ' := (List.cons_prefix_cons.1 hp).1
        cases t <;> exact absurd he (by decide)
      rw [shifted_succ, List.infix_cons_iff, not_or]
      exact ⟨hp, ih⟩

theorem Form.Admits.map_shifted {f : Form} {ls : List (List Char)} (h : f.Admits ls)
    (k : Nat) :
    f.Admits (ls.map (shifted k)) := by
  cases f with
  | comments => trivial
  | block t =>
      intro m hm
      obtain ⟨l, hl, rfl⟩ := List.mem_map.1 hm
      exact Triple.not_infix_shifted (h l hl) k

theorem Form.write_ne_nil (f : Form) {ls : List (List Char)} (h : ls ≠ []) :
    f.write ls ≠ [] := by
  cases f with
  | comments => simpa [Form.write] using h
  | block t => exact List.cons_ne_nil _ _

/-- The first and the last written line are not blank: a marker or a
delimiter stands there. -/
theorem Form.allBlank_of_mem_ends {f : Form} {ls : List (List Char)} {m : List Char}
    (hm : m ∈ (f.write ls).head? ∨ m ∈ (f.write ls).getLast?) : allBlank m = false := by
  cases f with
  | comments =>
      have hw : m ∈ Form.comments.write ls := by
        rcases hm with hm | hm
        · exact List.mem_of_mem_head? hm
        · exact List.mem_of_mem_getLast? hm
      obtain ⟨l, -, rfl⟩ := List.mem_map.1 hw
      rfl
  | block t =>
      have he : m = t.delimiter := by
        rcases hm with hm | hm
        · exact (Option.some_inj.1 hm).symm
        · rw [Form.write, ← List.cons_append, List.getLast?_concat] at hm
          exact (Option.some_inj.1 hm).symm
      rw [he, Triple.delimiter, allBlank_cons, t.isBlank_mark, Bool.false_and]

theorem Form.not_mem_of_mem_write {f : Form} {ls : List (List Char)}
    (h : ∀ l ∈ ls, '\n' ∉ l) {m : List Char} (hm : m ∈ f.write ls) : '\n' ∉ m := by
  cases f with
  | comments =>
      obtain ⟨l, hl, rfl⟩ := List.mem_map.1 hm
      simpa using h l hl
  | block t =>
      have hd : '\n' ∉ t.delimiter := by cases t <;> decide
      rcases List.mem_cons.1 hm with rfl | hm
      · exact hd
      · rcases List.mem_append.1 hm with hm | hm
        · exact h m hm
        · rw [List.mem_singleton.1 hm]
          exact hd

/-- Either half of the splitter gives the lines without the blanks at their ends. -/
theorem splitDeclaring_written (f : Form) {ls xs body : List (List Char)}
    (ha : f.Admits xs) (hr : List.Forall₂ ReadBack ls (f.write xs))
    (hb : StartsBody body) :
    splitDeclaring (ls ++ body) = (xs.map trimEnd, body) := by
  cases f with
  | comments => rw [splitDeclaring_comments hr, splitDeclaring_body hb, List.append_nil]
  | block t =>
      cases hr with
      | cons hf hls =>
          rw [eq_delimiter_of_readBack hf, List.cons_append, splitDeclaring_delimiter,
            splitBlock_block ha hls]

/-! ## Indentation that is shared -/

theorem filter_trimEnd_shifted (k : Nat) (ls : List (List Char)) :
    ((ls.map (shifted k)).map trimEnd).filter (fun l => !allBlank l) =
      ((ls.map trimEnd).filter fun l => !allBlank l).map (shifted k) := by
  induction ls with
  | nil => rfl
  | cons l ls ih =>
      by_cases h : allBlank l = true
      · simpa [h] using ih
      · have he := trimEnd_shifted k h
        simp [h] at ih ⊢
        exact ⟨he, ih⟩

/-- Lines that are moved together come out as if they had not been. -/
theorem dedent_shifted (k : Nat) (ls : List (List Char)) :
    dedent ((ls.map (shifted k)).map trimEnd) = dedent (ls.map trimEnd) := by
  unfold dedent sharedIndentation
  rw [filter_trimEnd_shifted]
  generalize (ls.map trimEnd).filter (fun l => !allBlank l) = kept
  by_cases hk : kept = []
  · rw [hk]
    rfl
  · have hi : (kept.map (shifted k)).map indentation =
        (kept.map indentation).map (k + ·) := by
      simp [indentation_shifted]
    rw [hi, least_map_add k (by simpa using hk), List.map_map]
    exact List.map_congr_left fun l _ => cut_shifted k _

theorem dedent_ne_nil {ls : List (List Char)} (h : ∃ l ∈ ls, allBlank l = false) :
    dedent (ls.map trimEnd) ≠ [] := by
  obtain ⟨l, hl, hb⟩ := h
  have hm : trimEnd l ∈ (ls.map trimEnd).filter fun l => !allBlank l :=
    List.mem_filter.2 ⟨List.mem_map_of_mem hl, by simp [hb]⟩
  rw [dedent, Ne, List.map_eq_nil_iff]
  exact List.ne_nil_of_mem hm

/-! ## Splitting what was written -/

/-- A cell: declaration lines, all moved to the right, in one of the forms,
and the body below. -/
def written (f : Form) (k : Nat) (ls body : List (List Char)) : String :=
  String.ofList (unlines (f.write (ls.map (shifted k)) ++ body))

theorem dropWhile_allBlank_written {f : Form} {xs ls rest : List (List Char)}
    (hx : xs ≠ []) (hr : List.Forall₂ ReadBack ls (f.write xs)) :
    (ls ++ rest).dropWhile allBlank = ls ++ rest := by
  obtain ⟨m, ms, hw⟩ := List.exists_cons_of_ne_nil (f.write_ne_nil hx)
  have hm : allBlank m = false := by
    have hf : m ∈ (f.write xs).head? := by
      rw [hw]
      rfl
    exact Form.allBlank_of_mem_ends (.inl hf)
  rw [hw] at hr
  cases hr with
  | cons hl _ => exact List.dropWhile_cons_of_neg (by simp [hl.allBlank_eq, hm])

theorem splitDeclaring_lines_written (f : Form) (k : Nat) {ls body : List (List Char)}
    (hls : ∀ l ∈ ls, '\n' ∉ l) (hbody : ∀ l ∈ body, '\n' ∉ l) (hne : ls ≠ [])
    (ha : f.Admits ls) (hs : StartsBody body) :
    splitDeclaring ((Text.lines (written f k ls body).toList).dropWhile allBlank) =
      ((ls.map (shifted k)).map trimEnd, Text.lines (unlines body)) := by
  have hx : ls.map (shifted k) ≠ [] := by simpa using hne
  have hfeed : ∀ m ∈ f.write (ls.map (shifted k)), '\n' ∉ m := by
    intro m hm
    refine Form.not_mem_of_mem_write ?_ hm
    intro x hx
    obtain ⟨l, hl, rfl⟩ := List.mem_map.1 hx
    simpa [shifted] using hls l hl
  have hlast : ∀ m ∈ (f.write (ls.map (shifted k))).getLast?, m ≠ [] := by
    rintro m hm rfl
    exact absurd (Form.allBlank_of_mem_ends (.inr hm)) (by decide)
  obtain ⟨read, hread, hr⟩ := lines_unlines_append hfeed hlast hbody
  have hb : StartsBody (Text.lines (unlines body)) := by
    rw [lines_unlines hbody]
    exact hs.readBack
  rw [written, String.toList_ofList, hread, dropWhile_allBlank_written hx hr,
    splitDeclaring_written f (ha.map_shifted k) hr hb]

theorem split?_written (f : Form) (k : Nat) {ls body : List (List Char)}
    (hls : ∀ l ∈ ls, '\n' ∉ l) (hbody : ∀ l ∈ body, '\n' ∉ l)
    (hne : ∃ l ∈ ls, allBlank l = false) (ha : f.Admits ls) (hs : StartsBody body) :
    split? (written f k ls body) =
      some ⟨(dedent (ls.map trimEnd)).map String.ofList,
        (Text.lines (unlines body)).map String.ofList⟩ := by
  have hls' : ls ≠ [] := by
    obtain ⟨l, hl, -⟩ := hne
    exact List.ne_nil_of_mem hl
  rw [split?, splitDeclaring_lines_written f k hls hbody hls' ha hs]
  simp only [dedent_shifted]
  rw [if_neg]
  simp [dedent_ne_nil hne]

/-! ## The directive -/

theorem detect?_congr {s t : List Char} (h : trim s = trim t) :
    Directive.detect? (String.ofList s) = Directive.detect? (String.ofList t) := by
  simp only [Directive.detect?, Directive.firstWord, String.toList_ofList, h]

theorem head?_filter_map_trimEnd {ls : List (List Char)} {first : List Char}
    (h : ls.find? (fun l => !allBlank l) = some first) :
    ((ls.map trimEnd).filter fun l => !allBlank l).head? = some (trimEnd first) := by
  have hc : (fun l => !allBlank l) ∘ trimEnd = fun l => !allBlank l := by
    funext l
    simp
  rw [List.head?_filter, List.find?_map, hc, h]
  rfl

theorem exists_dedent_eq_cons {ls : List (List Char)} {first : List Char}
    (h : ls.find? (fun l => !allBlank l) = some first) :
    ∃ l rest, dedent (ls.map trimEnd) = l :: rest ∧ trim l = trim first := by
  obtain ⟨rest, hf⟩ := List.head?_eq_some_iff.1 (head?_filter_map_trimEnd h)
  have hi : sharedIndentation (ls.map trimEnd) ≤ indentation (trimEnd first) := by
    rw [sharedIndentation, hf]
    exact least_le List.mem_cons_self
  refine ⟨_, _, by rw [dedent, hf, List.map_cons], ?_⟩
  rw [← trim_trimStart, trimStart_cut hi, trim_trimStart, trim_trimEnd]

theorem directive?_isSome {ls : List (List Char)} {first : List Char} {body : List String}
    (h : ls.find? (fun l => !allBlank l) = some first)
    (hd : (Directive.detect? (String.ofList first)).isSome) :
    (CellSpec.directive? ⟨(dedent (ls.map trimEnd)).map String.ofList, body⟩).isSome := by
  obtain ⟨l, rest, hc, ht⟩ := exists_dedent_eq_cons h
  rw [hc, List.map_cons, CellSpec.directive?, Option.isSome_map, detect?_congr ht]
  exact hd

theorem ofSource_congr {s t : String} {d : Declaration} (hs : split? s = some d)
    (ht : split? t = some d) (hd : (CellSpec.directive? d).isSome) :
    CellSpec.ofSource s = CellSpec.ofSource t := by
  obtain ⟨⟨directive, rest, lines⟩, hr⟩ := Option.isSome_iff_exists.1 hd
  simp only [CellSpec.ofSource, hs, ht, hr]
  cases directive <;> rfl

/-- All ways to write a declaration say the same: neither the form nor a common shift to
the right is left in what is read, and a cell with a directive compiles to the same,
with the same findings. -/
theorem forms_agree {ls body : List (List Char)} (hls : ∀ l ∈ ls, '\n' ∉ l)
    (hbody : ∀ l ∈ body, '\n' ∉ l) (hne : ∃ l ∈ ls, allBlank l = false)
    (hs : StartsBody body) :
    (∀ (f : Form) (k : Nat), f.Admits ls →
      split? (written f k ls body) =
        some ⟨(dedent (ls.map trimEnd)).map String.ofList,
          (Text.lines (unlines body)).map String.ofList⟩) ∧
    ∀ first ∈ ls.find? (fun l => !allBlank l),
      (Directive.detect? (String.ofList first)).isSome →
      ∀ (f g : Form) (k j : Nat), f.Admits ls → g.Admits ls →
        CellSpec.ofSource (written f k ls body) =
          CellSpec.ofSource (written g j ls body) := by
  refine ⟨fun f k ha => split?_written f k hls hbody hne ha hs, ?_⟩
  intro first hfirst hd f g k j hf hg
  exact ofSource_congr (split?_written f k hls hbody hne hf hs)
    (split?_written g j hls hbody hne hg hs) (directive?_isSome hfirst hd)

theorem forms_agree_socket :
    CellSpec.ofSource
        (written .comments 3 [[], ['@', 'W', 'S', ' ', '/', 'a'],
          [' ', 'k', ':', ' ', 'v']] [['x']]) =
      CellSpec.ofSource
        (written (.block .single) 0 [[], ['@', 'W', 'S', ' ', '/', 'a'],
          [' ', 'k', ':', ' ', 'v']]
          [['x']]) := by
  have hs : StartsBody [['x']] := by
    rintro l ⟨⟩
    refine ⟨by decide, fun t => ?_⟩
    cases t <;> decide
  have hd : (Directive.detect? (String.ofList ['@', 'W', 'S', ' ', '/',
      'a'])).isSome := by
    rw [Directive.detect?, String.toList_ofList]
    rfl
  have ha : (Form.block .single).Admits
      [[], ['@', 'W', 'S', ' ', '/', 'a'], [' ', 'k', ':', ' ', 'v']] := by
    simp only [Form.Admits]
    decide
  exact (forms_agree (by decide) (by decide) (by decide) hs).2 _ rfl hd _ _ 3 0 trivial ha

end NotebookService.Declaration
