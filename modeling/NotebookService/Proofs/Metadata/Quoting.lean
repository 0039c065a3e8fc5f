/-
# `NotebookService.Proofs.Metadata.Quoting` — quoted text and its two readers

A string is written between apostrophes, with each of its apostrophes doubled, or
between double quotes, with backslashes.  The reader of quoted strings knows both forms
and gives the string back (`readInline_quoted`).  The comment stripper comes first and
knows neither.  It takes a string for closed at the next mark, doubled or escaped as
that may be, and looks for comments in the rest.

`keeps` says of a string that no comment is found there, in terms of the string and not
of what is written for it.  Where one is found the closing mark is cut off, so the
string is refused and not shortened (`readInline_uncommented`).
-/
import NotebookService.Proofs.Metadata.Scalar

namespace NotebookService.Metadata

open NotebookService.Text

/-! ## Writing -/

/-- The two ways to put a string between quotes. -/
inductive Quoting where
  | apostrophes
  | doubleQuotes
  deriving DecidableEq, Repr

namespace Quoting

/-- The mark before and behind the string. -/
def mark : Quoting → Char
  | apostrophes => '\''
  | doubleQuotes => '"'

/-- The mark of the other way. -/
def other : Quoting → Char
  | apostrophes => '"'
  | doubleQuotes => '\''

/-- What a character of the string is written as. -/
def written (q : Quoting) (c : Char) : List Char :=
  match q with
  | apostrophes => if c = '\'' then ['\'', '\''] else [c]
  | doubleQuotes =>
    if c = '"' then ['\\', '"']
    else if c = '\\' then ['\\', '\\']
    else if c = '\t' then ['\\', 't']
    else [c]

/-- What stands between the marks. -/
def inner (q : Quoting) (s : List Char) : List Char := s.flatMap q.written

/-- The string between its marks. -/
def quoted (q : Quoting) (s : List Char) : List Char := q.mark :: (q.inner s ++ [q.mark])

/-- The string up to the closing mark, and what follows it. -/
def read? : Quoting → List Char → Option (List Char × List Char)
  | apostrophes => readApostrophes?
  | doubleQuotes => readDoubleQuotes?

variable {q : Quoting} {c : Char} {s t u v r : List Char}

@[simp] theorem inner_nil : q.inner [] = [] := rfl

@[simp] theorem inner_cons :
    q.inner (c :: s) = q.written c ++ q.inner s := List.flatMap_cons

theorem isBlank_mark (q : Quoting) : isBlank q.mark = false := by cases q <;> rfl

theorem startsFlow_mark (q : Quoting) (s : List Char) :
    startsFlow (q.mark :: s) = true := by cases q <;> rfl

theorem trimEnd_mark (q : Quoting) (s : List Char) :
    trimEnd (q.mark :: s) = q.mark :: trimEnd s :=
  trimEnd_append_cons_of_not q.isBlank_mark [] s

theorem trim_mark (q : Quoting) (s : List Char) :
    trim (q.mark :: s) = q.mark :: trimEnd s := by
  rw [trim_cons_of_not q.isBlank_mark, trimEnd_mark]

theorem trim_quoted (q : Quoting) (s : List Char) : trim (q.quoted s) = q.quoted s :=
  trim_cons_concat q.isBlank_mark q.isBlank_mark _

theorem mem_written {d : Char} (h : d ∈ q.written c) : d = c ∨ d = '\\' ∨ d = 't' := by
  cases q with
  | apostrophes =>
      rw [written] at h
      split at h
      · simp_all
      · exact .inl (List.mem_singleton.1 h)
  | doubleQuotes =>
      rw [written] at h
      split at h
      · rename_i hc
        rw [hc]
        simp only [List.mem_cons, List.not_mem_nil, or_false] at h
        exact h.elim (fun h => .inr (.inl h)) .inl
      · split at h
        · simp_all
        · split at h
          · simp_all
          · exact .inl (List.mem_singleton.1 h)

theorem mark_not_mem_written (h : c ≠ q.mark) : q.mark ∉ q.written c := by
  intro hm
  rcases mem_written hm with hc | hc | hc
  · exact h hc.symm
  · cases q <;> cases hc
  · cases q <;> cases hc

theorem other_not_mem_written (h : c ≠ q.other) : q.other ∉ q.written c := by
  intro hm
  rcases mem_written hm with hc | hc | hc
  · exact h hc.symm
  · cases q <;> cases hc
  · cases q <;> cases hc

theorem hash_not_mem_quoted (h : '#' ∉ s) : '#' ∉ q.quoted s := by
  have hm : '#' ≠ q.mark := by cases q <;> decide
  have hi : '#' ∉ q.inner s := by
    intro hi
    obtain ⟨c, hc, hw⟩ := List.mem_flatMap.1 hi
    rcases mem_written hw with rfl | hw | hw
    · exact h hc
    · cases hw
    · cases hw
  simp [quoted, hm, hi]

/-! ## Reading back -/

theorem readTrimmed_mark (q : Quoting) (s : List Char) :
    readTrimmed (q.mark :: s) = wholeString (q.read? s) := by
  cases q <;> rw [mark, readTrimmed, read?]

theorem readApostrophes?_cons (hc : c ≠ '\'') (s : List Char) :
    readApostrophes? (c :: s) = (readApostrophes? s).map fun p => (c :: p.1, p.2) := by
  rw [readApostrophes?.eq_def]
  split
  · rename_i h
    cases h
  · rename_i h
    exact absurd (List.cons.inj h).1 hc
  · rename_i h
    exact absurd (List.cons.inj h).1 hc
  · rename_i h
    obtain ⟨rfl, rfl⟩ := List.cons.inj h
    rfl

theorem readApostrophes?_close (h : s.head? ≠ some '\'') :
    readApostrophes? ('\'' :: s) = some ([], s) := by
  rw [readApostrophes?.eq_def]
  split
  · rename_i h'
    cases h'
  · rename_i h'
    obtain ⟨-, rfl⟩ := List.cons.inj h'
    exact absurd rfl h
  · rename_i h'
    obtain ⟨-, rfl⟩ := List.cons.inj h'
    rfl
  · rename_i hn h'
    obtain ⟨rfl, rfl⟩ := List.cons.inj h'
    exact (hn rfl).elim

theorem read?_written (q : Quoting) (c : Char) (s : List Char) :
    q.read? (q.written c ++ s) = (q.read? s).map fun p => (c :: p.1, p.2) := by
  cases q with
  | apostrophes =>
      rw [written, read?]
      split
      · rename_i h
        rw [h]
        simp [readApostrophes?]
      · rename_i h
        exact readApostrophes?_cons h s
  | doubleQuotes =>
      rw [written, read?]
      split
      · rename_i h
        rw [h]
        simp [readDoubleQuotes?, escaped]
      · split
        · rename_i h
          rw [h]
          simp [readDoubleQuotes?, escaped]
        · split
          · rename_i h
            rw [h]
            simp [readDoubleQuotes?, escaped]
          · rename_i hq hb _
            exact readDoubleQuotes?_cons hq hb s

theorem read?_inner_append (q : Quoting) (s t : List Char) :
    q.read? (q.inner s ++ t) = (q.read? t).map fun p => (s ++ p.1, p.2) := by
  induction s with
  | nil => cases h : q.read? t <;> simp [h]
  | cons c s ih =>
      rw [inner_cons, List.append_assoc, read?_written, ih, Option.map_map]
      rfl

theorem read?_close (h : t.head? ≠ some q.mark) :
    q.read? (q.mark :: t) = some ([], t) := by
  cases q with
  | apostrophes => exact readApostrophes?_close h
  | doubleQuotes => rw [read?, mark, readDoubleQuotes?]

/-- A string is read up to its own closing mark. -/
theorem read?_quoted (s : List Char) (h : t.head? ≠ some q.mark) :
    q.read? (q.inner s ++ q.mark :: t) = some (s, t) := by
  rw [read?_inner_append, read?_close h, Option.map_some, List.append_nil]

theorem read?_inner (q : Quoting) (s : List Char) : q.read? (q.inner s) = none := by
  have h := read?_inner_append q s []
  rw [List.append_nil] at h
  rw [h]
  cases q <;> rfl

theorem readApostrophes?_append (h : readApostrophes? s = some (v, r))
    (ht : t.head? ≠ some '\'') :
    readApostrophes? (s ++ t) = some (v, r ++ t) := by
  fun_induction readApostrophes? s generalizing v with
  | case1 => cases h
  | case2 s ih =>
      obtain ⟨p, hp, he⟩ := Option.map_eq_some_iff.1 h
      cases he
      rw [List.cons_append, List.cons_append, readApostrophes?, ih hp, Option.map_some]
  | case3 s hn =>
      cases h
      refine readApostrophes?_close ?_
      cases r with
      | nil => exact ht
      | cons c r =>
          rintro ⟨⟩
          exact hn r rfl
  | case4 c s _ hc ih =>
      obtain ⟨p, hp, he⟩ := Option.map_eq_some_iff.1 h
      cases he
      rw [List.cons_append, readApostrophes?_cons hc, ih hp, Option.map_some]

theorem readDoubleQuotes?_append_of_eq (h : readDoubleQuotes? s = some (v, r))
    (t : List Char) :
    readDoubleQuotes? (s ++ t) = some (v, r ++ t) := by
  fun_induction readDoubleQuotes? s generalizing v with
  | case1 => cases h
  | case2 s =>
      cases h
      rw [List.cons_append, readDoubleQuotes?]
  | case3 => cases h
  | case4 c s ih =>
      obtain ⟨p, hp, he⟩ := Option.map_eq_some_iff.1 h
      cases he
      rw [List.cons_append, List.cons_append, readDoubleQuotes?, ih hp, Option.map_some]
  | case5 c s hq hb hb' ih =>
      obtain ⟨p, hp, he⟩ := Option.map_eq_some_iff.1 h
      cases he
      have hc : c ≠ '\\' := by
        intro hc
        cases s with
        | nil => exact hb hc rfl
        | cons d s => exact hb' d s hc rfl
      rw [List.cons_append, readDoubleQuotes?_cons hq hc, ih hp, Option.map_some]

/-- What is read up to a closing mark does not hang on what follows it, other
than the mark itself. -/
theorem read?_append (h : q.read? s = some (v, r)) (ht : t.head? ≠ some q.mark) :
    q.read? (s ++ t) = some (v, r ++ t) := by
  cases q with
  | apostrophes => exact readApostrophes?_append h ht
  | doubleQuotes => exact readDoubleQuotes?_append_of_eq h t

theorem readInline_quoted (q : Quoting) (s : List Char) :
    readInline (q.quoted s) = .ok (.str (String.ofList s)) := by
  have hr : q.read? (q.inner s ++ [q.mark]) = some (s, []) := read?_quoted s (by simp)
  rw [readInline, trim_quoted, quoted, readTrimmed_mark, hr]
  rfl

/-- Without its closing mark the string has no end, whatever blanks
are dropped with it. -/
theorem readInline_cut (q : Quoting) (s : List Char) :
    readInline (q.mark :: q.inner s) = .error .unterminatedString := by
  obtain ⟨z, hz, hb⟩ := exists_trimEnd_append (q.inner s)
  have hhead : z.head? ≠ some q.mark := by
    intro hm
    have := allBlank_iff.1 hb _ (List.mem_of_mem_head? hm)
    rw [q.isBlank_mark] at this
    cases this
  have hr : q.read? (trimEnd (q.inner s)) = none := by
    cases hr : q.read? (trimEnd (q.inner s)) with
    | none => rfl
    | some p =>
        have ha := read?_append hr hhead
        rw [← hz, read?_inner] at ha
        cases ha
  rw [readInline, trim_mark, readTrimmed_mark, hr]
  rfl

/-! ## Under the comment stripper -/

/-- The character is a blank that stands as one between the marks too. -/
def leavesBlank (q : Quoting) (c : Char) : Bool := isBlank c && q.written c = [c]

/-- A comment starts in the text, where the stripper takes the string for closed.
`quoted` says that a quote of the other kind is open there. -/
def opensComment (q : Quoting) : (afterBlank quoted : Bool) → List Char → Bool
  | _, _, [] => false
  | _, true, c :: s => q.opensComment false (c ≠ q.other) s
  | afterBlank, false, c :: s =>
    if afterBlank && c = '#' then true
    else if afterBlank && c = q.other then q.opensComment false true s
    else q.opensComment (q.leavesBlank c) false s

/-- The string is safe from the stripper.  It is up to its first mark; what follows that
may hold no comment. -/
def keeps (q : Quoting) (s : List Char) : Bool :=
  match s.dropWhile (· ≠ q.mark) with
  | [] => true
  | _ :: bare => !q.opensComment false false bare

/-- A quote of the other kind, or none. -/
def otherOpen (q : Quoting) (quoted : Bool) : Option Char :=
  if quoted then some q.other else none

/-- The stripper takes the string for closed at the first mark in it. -/
theorem uncommented_written_mark (q : Quoting) (t : List Char) :
    uncommented false (some q.mark) (q.written q.mark ++ t) =
      q.written q.mark ++ uncommented false none t := by
  cases q <;> simp [written, mark, uncommented, isBlank, Nesting.isQuote]

/-- Between quotes of the other kind the next of them is awaited. -/
theorem uncommented_otherOpen (q : Quoting) (b : Bool) (c : Char) (t : List Char) :
    uncommented b (q.otherOpen true) (q.written c ++ t) =
      q.written c ++ uncommented false (q.otherOpen (c ≠ q.other)) t := by
  rw [otherOpen, if_pos rfl, uncommented_some _ false]
  by_cases hc : c = q.other
  · rw [hc]
    cases q <;> simp [written, other, otherOpen, uncommented, isBlank]
  · rw [uncommented_some_append (other_not_mem_written hc), otherOpen,
      if_pos (by simpa using hc)]

theorem uncommented_opening (q : Quoting) (t : List Char) :
    uncommented true none (q.written q.other ++ t) =
      q.written q.other ++ uncommented false (q.otherOpen true) t := by
  cases q <;> simp [written, other, otherOpen, uncommented, isBlank, Nesting.isQuote]

theorem eq_mark_or_eq_other (q : Quoting) (h : Nesting.isQuote c = true) :
    c = q.mark ∨ c = q.other := by
  simp only [Nesting.isQuote, Bool.or_eq_true, decide_eq_true_eq] at h
  cases q with
  | apostrophes => exact h
  | doubleQuotes => exact h.symm

theorem written_mark_ne (q : Quoting) : q.written q.mark ≠ [q.mark] := by
  cases q <;> decide

theorem leavesBlank_of_written (h : q.written c = [c]) :
    q.leavesBlank c = isBlank c := by simp [leavesBlank, h]

theorem leavesBlank_of_written_ne (h : q.written c ≠ [c]) :
    q.leavesBlank c = false := by simp [leavesBlank, h]

/-- Outside quotes an own mark behind a blank opens a string and, being
doubled, closes it. -/
theorem uncommented_bare {b : Bool} (hc : ¬ (b && c = '#') = true)
    (ho : ¬ (b && c = q.other) = true) (t : List Char) :
    uncommented b none (q.written c ++ t) =
      q.written c ++ uncommented (q.leavesBlank c) none t := by
  by_cases hw : q.written c = [c]
  · have hq : ¬ (b && Nesting.isQuote c) = true := by
      intro h
      obtain ⟨hb, hq⟩ := Bool.and_eq_true_iff.1 h
      rw [hb, Bool.true_and, decide_eq_true_eq] at ho
      rcases q.eq_mark_or_eq_other hq with hm | hm
      · exact written_mark_ne q (hm ▸ hw)
      · exact ho hm
    rw [leavesBlank_of_written hw, hw]
    exact uncommented_plain hc hq t
  · rw [leavesBlank_of_written_ne hw]
    cases q with
    | apostrophes =>
        obtain rfl : c = '\'' := by
          by_contra hn
          exact hw (if_neg hn)
        cases b <;> simp [written, uncommented, isBlank, Nesting.isQuote]
    | doubleQuotes =>
        simp only [written] at hw ⊢
        split
        · cases b <;> simp [uncommented, isBlank, Nesting.isQuote]
        · split
          · cases b <;> simp [uncommented, isBlank, Nesting.isQuote]
          · split
            · cases b <;> simp [uncommented, isBlank, Nesting.isQuote]
            · simp_all

/-- The stripper leaves all of the string and its closing mark, or, at a comment, the
beginning of the string. -/
def Stripped (q : Quoting) (comment : Bool) (s left : List Char) : Prop :=
  if comment then ∃ t, left = q.inner t else left = q.inner s ++ [q.mark]

theorem Stripped.cons {comment : Bool} {left : List Char} (h : q.Stripped comment s left)
    (c : Char) :
    q.Stripped comment (c :: s) (q.written c ++ left) := by
  cases comment with
  | false =>
      obtain rfl : left = q.inner s ++ [q.mark] := h
      exact (List.append_assoc _ _ _).symm
  | true =>
      obtain ⟨t, rfl⟩ := h
      exact ⟨c :: t, rfl⟩

theorem stripped_bare (q : Quoting) (b quoted : Bool) (s : List Char) :
    q.Stripped (q.opensComment b quoted s) s
      (uncommented b (q.otherOpen quoted) (q.inner s ++ [q.mark])) := by
  fun_induction opensComment q b quoted s with
  | case1 b quoted => cases quoted <;> cases b <;> cases q <;> rfl
  | case2 b c s ih =>
      rw [inner_cons, List.append_assoc, uncommented_otherOpen]
      exact ih.cons c
  | case3 b c s h =>
      obtain ⟨rfl, rfl⟩ : b = true ∧ c = '#' := by simpa using h
      refine ⟨[], ?_⟩
      cases q <;> rfl
  | case4 b c s _ ho ih =>
      obtain ⟨rfl, rfl⟩ : b = true ∧ c = q.other := by simpa using ho
      rw [inner_cons, List.append_assoc]
      show q.Stripped _ _ (uncommented true none _)
      rw [uncommented_opening]
      exact ih.cons q.other
  | case5 b c s hc ho ih =>
      rw [inner_cons, List.append_assoc]
      show q.Stripped _ _ (uncommented b none _)
      rw [uncommented_bare hc ho]
      exact ih.cons c

theorem keeps_cons (h : c ≠ q.mark) (s : List Char) : q.keeps (c :: s) = q.keeps s := by
  rw [keeps, keeps, List.dropWhile_cons_of_pos (by simpa using h)]

theorem keeps_mark (q : Quoting) (s : List Char) :
    q.keeps (q.mark :: s) = !q.opensComment false false s := by
  rw [keeps, List.dropWhile_cons_of_neg (by simp)]

theorem stripped_quoted (q : Quoting) (s : List Char) :
    q.Stripped (!q.keeps s) s
      (uncommented false (some q.mark) (q.inner s ++ [q.mark])) := by
  induction s with
  | nil =>
      show _ = _
      simp [uncommented]
  | cons c s ih =>
      rw [inner_cons, List.append_assoc]
      -- The first own mark ends the induction: behind it the stripper is outside quotes.
      by_cases hc : c = q.mark
      · rw [hc, uncommented_written_mark, keeps_mark, Bool.not_not]
        exact (stripped_bare q false false s).cons q.mark
      · rw [uncommented_some_append (mark_not_mem_written hc), keeps_cons hc]
        exact ih.cons c

theorem uncommented_mark (q : Quoting) (s : List Char) :
    uncommented true none (q.mark :: s) =
      q.mark :: uncommented false (some q.mark) s := by
  cases q <;> rfl

/-- What is read of a quoted string, after the stripper: the string, or, where it was
cut, that it has no end. -/
theorem readInline_uncommented (q : Quoting) (s : List Char) :
    readInline (uncommented true none (q.quoted s)) =
      if q.keeps s then .ok (.str (String.ofList s)) else .error .unterminatedString := by
  have h := stripped_quoted q s
  rw [quoted, uncommented_mark]
  cases hk : q.keeps s with
  | true =>
      rw [hk] at h
      have he : uncommented false (some q.mark) (q.inner s ++ [q.mark]) =
          q.inner s ++ [q.mark] := h
      rw [he]
      exact readInline_quoted q s
  | false =>
      rw [hk] at h
      obtain ⟨t, ht⟩ := h
      rw [ht]
      exact readInline_cut q t

end Quoting

end NotebookService.Metadata
