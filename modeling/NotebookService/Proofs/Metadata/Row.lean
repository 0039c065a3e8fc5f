/-
# `NotebookService.Proofs.Metadata.Row` — lines as the rows they stand for

A line goes through the comment stripper and loses its blanks at both ends before a
reader sees it.  `RowText` says of a text that it comes through whole, and with
`rowOfLine_spaces` a line of spaces and such a text becomes the row at that column.

Whether a comment starts depends on the character before, and whether a quote is open.
So the stripper is followed from a state: outside quotes a plain text leaves some state
behind it, and a space after it always the same one.
-/
import NotebookService.Metadata.Block
import NotebookService.Proofs.Text.Trim

namespace NotebookService.Metadata

open NotebookService.Text

variable {s t : List Char}

/-! ## Comments -/

theorem uncommented_isPrefix (b : Bool) (q : Option Char) (s : List Char) :
    uncommented b q s <+: s := by
  induction s generalizing b q with
  | nil => exact List.prefix_rfl
  | cons c s ih =>
      cases q with
      | some q => exact List.prefix_cons_inj c |>.2 (ih _ _)
      | none =>
          rw [uncommented]
          split
          · exact List.nil_prefix
          · split
            · exact List.prefix_cons_inj c |>.2 (ih _ _)
            · exact List.prefix_cons_inj c |>.2 (ih _ _)

theorem uncommented_plain {b : Bool} {c : Char} (hc : ¬ (b && c = '#') = true)
    (hq : ¬ (b && Nesting.isQuote c) = true) (s : List Char) :
    uncommented b none (c :: s) = c :: uncommented (isBlank c) none s := by
  rw [uncommented, if_neg hc, if_neg hq]

theorem uncommented_cons {c : Char} (hc : c ≠ '#') (hq : Nesting.isQuote c = false)
    (b : Bool) (s : List Char) :
    uncommented b none (c :: s) = c :: uncommented (isBlank c) none s :=
  uncommented_plain (by simp [hc]) (by simp [hq]) s

/-- No character of the text starts a comment or a string. -/
def NoComment (s : List Char) : Prop := ∀ c ∈ s, c ≠ '#' ∧ Nesting.isQuote c = false

instance (s : List Char) : Decidable (NoComment s) :=
  List.decidableBAll (fun c => c ≠ '#' ∧ Nesting.isQuote c = false) s

theorem exists_uncommented_append (h : NoComment s) (b : Bool) (t : List Char) :
    ∃ b', uncommented b none (s ++ t) = s ++ uncommented b' none t := by
  induction s generalizing b with
  | nil => exact ⟨b, rfl⟩
  | cons c s ih =>
      obtain ⟨hc, hq⟩ := h c List.mem_cons_self
      obtain ⟨b', hb'⟩ := ih (fun d hd => h d (List.mem_cons_of_mem c hd)) (isBlank c)
      exact ⟨b', by rw [List.cons_append, uncommented_cons hc hq, hb', List.cons_append]⟩

theorem uncommented_eq_self (h : NoComment s) (b : Bool) : uncommented b none s = s := by
  obtain ⟨b', hb'⟩ := exists_uncommented_append h b []
  simpa [uncommented] using hb'

theorem uncommented_append_space (h : NoComment s) (b : Bool) (t : List Char) :
    uncommented b none (s ++ ' ' :: t) = s ++ ' ' :: uncommented true none t := by
  obtain ⟨b', hb'⟩ := exists_uncommented_append h b (' ' :: t)
  rw [hb', uncommented_cons (by decide) rfl, isBlank_space]

theorem uncommented_spaces (d : Nat) (s : List Char) :
    uncommented true none (List.replicate d ' ' ++ s) =
      List.replicate d ' ' ++ uncommented true none s := by
  induction d with
  | zero => rfl
  | succ d ih =>
      rw [List.replicate_succ, List.cons_append, uncommented_cons (by decide) rfl,
        isBlank_space, ih, List.cons_append]

theorem uncommented_of_not_mem (h : '#' ∉ s) (b : Bool) (q : Option Char) :
    uncommented b q s = s := by
  induction s generalizing b q with
  | nil => rfl
  | cons c s ih =>
      obtain ⟨hc, hs⟩ := not_or.1 (mt List.mem_cons.2 h)
      cases q with
      | some q => rw [uncommented, ih hs]
      | none =>
          rw [uncommented, if_neg (by simp [Ne.symm hc])]
          simp only [ih hs, ite_self]

/-- Inside a string blanks do not matter. -/
theorem uncommented_some (b b' : Bool) (m : Char) (s : List Char) :
    uncommented b (some m) s = uncommented b' (some m) s := by
  cases s <;> rfl

/-- Inside a string nothing starts a comment. -/
theorem uncommented_some_append {m : Char} (h : m ∉ s) (t : List Char) :
    uncommented false (some m) (s ++ t) = s ++ uncommented false (some m) t := by
  induction s with
  | nil => rfl
  | cons c s ih =>
      obtain ⟨hc, hs⟩ := not_or.1 (mt List.mem_cons.2 h)
      rw [List.cons_append, uncommented]
      simp only [if_neg (Ne.symm hc)]
      rw [uncommented_some _ false, ih hs, List.cons_append]

theorem uncommented_quoted {q : Char} (h : q ∉ s) (b : Bool) (t : List Char) :
    uncommented b (some q) (s ++ q :: t) = s ++ q :: uncommented (isBlank q) none t := by
  rw [uncommented_some b false, uncommented_some_append h, uncommented, if_pos rfl]

/-! ## Texts of rows -/

/-- The text is the text of a row as it stands. -/
structure RowText (s : List Char) : Prop where
  ne_nil : s ≠ []
  trim_eq : trim s = s
  uncommented_eq : uncommented true none s = s

namespace RowText

theorem allBlank_eq (h : RowText s) : allBlank s = false := by
  cases hb : allBlank s with
  | false => rfl
  | true => exact absurd (h.trim_eq ▸ trim_of_allBlank hb) h.ne_nil

theorem trimEnd_eq (h : RowText s) : trimEnd s = s := by
  rw [← h.trim_eq, trim, trimEnd_trimEnd]

theorem exists_cons (h : RowText s) : ∃ c t, s = c :: t ∧ isBlank c = false := by
  obtain ⟨c, t, rfl⟩ := List.exists_cons_of_ne_nil h.ne_nil
  refine ⟨c, t, rfl, ?_⟩
  cases hb : isBlank c with
  | false => rfl
  | true =>
      have hl := length_trim_le t
      have he := congrArg List.length h.trim_eq
      rw [trim_cons_of_isBlank hb, List.length_cons] at he
      omega

theorem of_plain (hne : s ≠ []) (hb : NoBlank s) (hc : NoComment s) : RowText s :=
  ⟨hne, hb.trim_eq, uncommented_eq_self hc true⟩

theorem append_space (hs : RowText s) (hc : NoComment s) (ht : RowText t) :
    RowText (s ++ ' ' :: t) := by
  obtain ⟨c, u, rfl, hb⟩ := hs.exists_cons
  have htr : trimEnd (c :: u ++ ' ' :: t) = c :: u ++ ' ' :: t := by
    have ha : ¬ allBlank (' ' :: t) = true := by simp [ht.allBlank_eq]
    rw [trimEnd_append_of_not ha, trimEnd_cons_of_not (by simp [ht.allBlank_eq]),
      ht.trimEnd_eq]
  refine ⟨by simp, ?_, ?_⟩
  · rw [List.cons_append, trim_cons_of_not hb, ← List.cons_append, htr]
  · rw [uncommented_append_space hc, ht.uncommented_eq]

end RowText

theorem noComment_dash : NoComment ['-'] := by decide

theorem rowText_dash : RowText ['-'] := .of_plain (by decide) (by decide) noComment_dash

theorem behindDash_cons {c : Char} (hb : isBlank c = false) (n d : Nat) (t : List Char) :
    Row.behindDash ⟨n, d, '-' :: ' ' :: c :: t⟩ = ⟨n, d + 2, c :: t⟩ := by
  have hi : indentation (' ' :: c :: t) = 1 := by
    rw [indentation, List.takeWhile_cons_of_pos isBlank_space,
      List.takeWhile_cons_of_neg (by simp [hb])]
    rfl
  have ht : trimStart (' ' :: c :: t) = c :: t := by
    rw [trimStart_cons_of_isBlank rfl, trimStart_cons_of_not hb]
  rw [Row.behindDash]
  simp only [List.tail_cons, hi, ht]

theorem behindDash_eq (h : RowText s) (n d : Nat) :
    Row.behindDash ⟨n, d, '-' :: ' ' :: s⟩ = ⟨n, d + 2, s⟩ := by
  obtain ⟨c, t, rfl, hb⟩ := h.exists_cons
  exact behindDash_cons hb n d t

/-! ## Rows of lines -/

theorem rowOfLine_of_content {c : Char} (hb : isBlank c = false) {line : List Char}
    {d : Nat} (h : trimEnd (uncommented true none line) = List.replicate d ' ' ++ c :: t)
    (n : Nat) :
    rowOfLine n line = .ok (some ⟨n, d, c :: t⟩) := by
  have hsp : c ≠ ' ' := by
    rintro rfl
    cases hb
  have htab : c ≠ '\t' := by
    rintro rfl
    cases hb
  have hd : (List.replicate d ' ' ++ c :: t).dropWhile (· = ' ') = c :: t := by
    rw [List.dropWhile_append_of_pos (by simp),
      List.dropWhile_cons_of_neg (by simpa using hsp)]
  rw [rowOfLine, h]
  simp [hd, htab]

theorem rowOfLine_spaces (n d : Nat) (h : RowText s) :
    rowOfLine n (List.replicate d ' ' ++ s) = .ok (some ⟨n, d, s⟩) := by
  obtain ⟨c, u, rfl, hb⟩ := h.exists_cons
  refine rowOfLine_of_content hb ?_ n
  rw [uncommented_spaces, h.uncommented_eq,
    trimEnd_append_of_not (by simp [h.allBlank_eq]), h.trimEnd_eq]

theorem rowOfLine_headed (n d : Nat) (hs : RowText s) (hc : NoComment s)
    (ht : ¬ allBlank (uncommented true none t) = true) :
    rowOfLine n (List.replicate d ' ' ++ (s ++ ' ' :: t)) =
      .ok (some ⟨n, d, s ++ ' ' :: trimEnd (uncommented true none t)⟩) := by
  obtain ⟨c, u, rfl, hb⟩ := hs.exists_cons
  refine rowOfLine_of_content hb ?_ n
  have ha : ¬ allBlank (' ' :: uncommented true none t) = true := by simpa using ht
  rw [uncommented_spaces, uncommented_append_space hc,
    trimEnd_append_of_not (by simp [ht]), trimEnd_append_of_not ha,
    trimEnd_cons_of_not ht]
  rfl

/-- Texts at their columns as rows, numbered from `n` on. -/
def rowsOf (n : Nat) : List (Nat × List Char) → List Row
  | [] => []
  | (d, s) :: ls => ⟨n, d, s⟩ :: rowsOf (n + 1) ls

theorem rowsOf_append (n : Nat) (ls ms : List (Nat × List Char)) :
    rowsOf n (ls ++ ms) = rowsOf n ls ++ rowsOf (n + ls.length) ms := by
  induction ls generalizing n with
  | nil => rfl
  | cons l ls ih =>
      rw [List.cons_append, rowsOf, ih, rowsOf, List.cons_append, List.length_cons,
        Nat.add_right_comm, Nat.add_assoc]

theorem rowsFrom_spaces {ls : List (Nat × List Char)} (h : ∀ l ∈ ls, RowText l.2)
    (n : Nat) :
    rowsFrom n (ls.map fun l => List.replicate l.1 ' ' ++ l.2) = .ok (rowsOf n ls) := by
  induction ls generalizing n with
  | nil => rfl
  | cons l ls ih =>
      rw [List.map_cons, rowsFrom, rowOfLine_spaces n l.1 (h l List.mem_cons_self),
        ih fun m hm => h m (List.mem_cons_of_mem l hm)]
      rfl

end NotebookService.Metadata
