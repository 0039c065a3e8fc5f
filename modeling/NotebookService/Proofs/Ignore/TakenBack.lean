/-
# `NotebookService.Proofs.Ignore.TakenBack` — when a line takes its own pattern back

A line with a `!`  in front takes back what its pattern matches.  One would expect `!p`
to undo a line `p`, whatever other lines there are and wherever the two stand.  The
order of the lines does not matter indeed, but the two lines do not match in the same
way: `p` ignores a text also when the two match without the slashes at their ends, and
`!p` takes back a text only when they match as they stand.  So `data/` ignores `data`,
and `!data/` does not take it back.

`negation_undoes_iff` says which texts `!p` takes back in every list of lines: those
that `p` matches as it stands.  The slashes at the end of a pattern are always tokens of
their own, since no class can be open there (`tokens_append`), and so they match exactly
the slashes at the end of a text.  With as many of them on both sides the line is
undone, and with more of them behind the pattern it never is.
-/
import NotebookService.Proofs.Ignore.Matching
import NotebookService.Proofs.Ignore.Reincluded
import NotebookService.Proofs.Text.Lines

namespace NotebookService.Ignore

open NotebookService.Text

/-! ## Patterns and texts put together -/

section Append

variable {p q s u text : List Char} {ts us : List Token}

theorem closes_append_iff (hq : ']' ∉ q) : Closes (p ++ q) ↔ Closes p := by
  have hcut {body rest : List Char} (h : p ++ q = body ++ ']' :: rest) : ∃ rest', p =
      body ++ ']' :: rest' := by
    rcases List.append_eq_append_iff.1 h with ⟨t, rfl, ht⟩ | ⟨t, rfl, ht⟩
    · exact absurd (ht ▸ List.mem_append_right t List.mem_cons_self) hq
    · cases t with
      | nil =>
          rw [List.nil_append] at ht
          exact absurd (ht ▸ List.mem_cons_self) hq
      | cons c t =>
          cases ht
          exact ⟨t, rfl⟩
  constructor
  · rintro ⟨body, rest, hb, h | ⟨hh, h⟩⟩
    · obtain ⟨rest', rfl⟩ : ∃ rest', p = '!' :: body ++ ']' :: rest' := hcut h
      exact ⟨body, rest', hb, .inl rfl⟩
    · obtain ⟨rest', rfl⟩ := hcut h
      exact ⟨body, rest', hb, .inr ⟨hh, rfl⟩⟩
  · rintro ⟨body, rest, hb, rfl | ⟨hh, rfl⟩⟩
    · exact ⟨body, rest ++ q, hb, .inl (by simp)⟩
    · exact ⟨body, rest ++ q, hb, .inr ⟨hh, by simp⟩⟩

/-- Two patterns are written behind each other, unless the second could close a
class of the first. -/
theorem Written.append (hq : ']' ∉ q) (hp : Written p ts) (hu : Written q us) :
    Written (p ++ q) (ts ++ us) := by
  induction hp with
  | nil => exact hu
  | anyRun _ ih => exact .anyRun ih
  | anyChar _ ih => exact .anyChar ih
  | inside hb hh _ ih => simpa using Written.inside hb hh ih
  | outside hb _ ih => simpa using Written.outside hb ih
  | bracket hc _ ih => exact .bracket (mt (closes_append_iff hq).1 hc) ih
  | char hc _ ih => exact .char hc ih

theorem tokens_append (hq : ']' ∉ q) : tokens (p ++ q) = tokens p ++ tokens q :=
  ((written_tokens p).append hq (written_tokens q)).tokens_eq

theorem matches_append_iff :
    Matches (ts ++ us) text ↔ ∃ s u, s ++ u = text ∧ Matches ts s ∧ Matches us u := by
  constructor
  · intro h
    induction ts generalizing text with
    | nil => exact ⟨[], text, rfl, .nil, h⟩
    | cons t ts ih =>
        cases h with
        | run piece h =>
            obtain ⟨s, u, rfl, hs, hu⟩ := ih h
            exact ⟨piece ++ s, u, List.append_assoc piece s u, .run piece hs, hu⟩
        | one ha h =>
            obtain ⟨s, u, rfl, hs, hu⟩ := ih h
            exact ⟨_ :: s, u, rfl, .one ha hs, hu⟩
  · rintro ⟨s, u, rfl, hs, hu⟩
    induction hs with
    | nil => exact hu
    | run piece _ ih => exact (List.append_assoc piece _ u).symm ▸ .run piece ih
    | one ha _ ih => exact .one ha ih

end Append

/-! ## Slashes at the end -/

/-- The number of slashes at the end of a text. -/
def slashes (s : List Char) : Nat := (s.rtakeWhile (· = '/')).length

variable {p text : List Char} {n : Nat}

theorem eq_append_slashes (s : List Char) :
    s = dropEndWhile (· = '/') s ++ List.replicate (slashes s) '/' := by
  have hall : s.rtakeWhile (· = '/') = List.replicate (slashes s) '/' :=
    List.eq_replicate_iff.2 ⟨rfl, fun c hc => by simpa using List.mem_rtakeWhile_imp hc⟩
  conv_lhs => rw [← List.rdropWhile_append_rtakeWhile (p := (· = '/')) (l := s)]
  rw [dropEndWhile_eq_rdropWhile, hall]

theorem le_slashes (s : List Char) (n : Nat) :
    n ≤ slashes (s ++ List.replicate n '/') := by
  rw [slashes, List.rtakeWhile, List.reverse_append, List.reverse_replicate,
    List.length_reverse, List.takeWhile_append_of_pos (by simp), List.length_append,
    List.length_replicate]
  exact Nat.le_add_right n _

theorem matches_slashes_iff :
    Matches (tokens (List.replicate n '/')) text ↔ text = List.replicate n '/' := by
  induction n generalizing text with
  | zero =>
      rw [List.replicate_zero, tokens]
      exact matches_nil_iff
  | succ n ih =>
      have ht : tokens ('/' :: List.replicate n '/') =
          .char '/' :: tokens (List.replicate n '/') :=
        (Written.char (by decide) (written_tokens _)).tokens_eq
      rw [List.replicate_succ, ht, matches_cons_iff (t := .char '/') (by simp)]
      constructor
      · rintro ⟨c, u, rfl, hc, hu⟩
        cases of_decide_eq_true hc
        rw [ih.1 hu]
      · rintro rfl
        exact ⟨'/', _, rfl, rfl, ih.2 rfl⟩

/-- A text is matched with the slashes at the end of the pattern if and only if it ends
with them, and what is in front is matched by what is in front. -/
theorem matches_append_slashes_iff : Matches (tokens (p ++ List.replicate n '/')) text ↔
    ∃ s, s ++ List.replicate n '/' = text ∧ Matches (tokens p) s := by
  have hn : ']' ∉ List.replicate n '/' :=
    fun h => absurd (List.eq_of_mem_replicate h) (by decide)
  rw [tokens_append hn, matches_append_iff]
  constructor
  · rintro ⟨s, u, rfl, hs, hu⟩
    rw [matches_slashes_iff.1 hu]
    exact ⟨s, rfl, hs⟩
  · rintro ⟨s, rfl, hs⟩
    exact ⟨s, _, rfl, hs, matches_slashes_iff.2 rfl⟩

theorem slashes_le_of_matches (h : Matches (tokens p) text) :
    slashes p ≤ slashes text := by
  rw [eq_append_slashes p, matches_append_slashes_iff] at h
  obtain ⟨s, rfl, -⟩ := h
  exact le_slashes s (slashes p)

theorem matches_dropEndWhile_iff (h : slashes p = slashes text) :
    Matches (tokens (dropEndWhile (· = '/') p)) (dropEndWhile (· = '/') text) ↔
      Matches (tokens p) text := by
  conv_rhs => rw [eq_append_slashes p, matches_append_slashes_iff,
    eq_append_slashes text, h]
  constructor
  · intro hm
    exact ⟨_, rfl, hm⟩
  · rintro ⟨s, hs, hm⟩
    rwa [← List.append_cancel_right hs]

/-! ## A line and its negation -/

theorem fileLines_unlines {ls : List (List Char)}
    (h : ∀ l ∈ ls, trim l = l ∧ l ≠ [] ∧ '\n' ∉ l) :
    fileLines (String.ofList (unlines ls)) = ls := by
  have hpieces : linesOfPieces ls = ls := by
    induction ls with
    | nil => rfl
    | cons l ls ih =>
        obtain ⟨⟨ht, hne, -⟩, hls⟩ := List.forall_mem_cons.1 h
        have hend : trimEnd l = l := by
          rw [← ht, trim, trimEnd_trimEnd]
        cases ls with
        | nil => simp [linesOfPieces, hne]
        | cons m ls =>
            rw [linesOfPieces_cons (List.cons_ne_nil m ls),
              dropReturn_of_trimEnd_eq hend, ih hls]
  rw [fileLines, String.toList_ofList, lines_unlines fun l hl => (h l hl).2.2, hpieces,
    List.map_congr_left fun l hl => (h l hl).1]
  exact List.map_id' ls

/-- A trimmed line of an ignore file that is a pattern for what to ignore. -/
structure IsIgnoreLine (p : List Char) : Prop where
  trimmed : trim p = p
  oneLine : '\n' ∉ p
  ignoring : isIgnoring p = true

/-- In every list of lines with the negation of `p` among them, the
text is not ignored. -/
def TakesBack (p : List Char) (path : String) : Prop :=
  ∀ text, '!' :: p ∈ fileLines text → (Rules.ofText text).ignores path = false

namespace IsIgnoreLine

variable {path : String}

theorem ne_nil (h : IsIgnoreLine p) : p ≠ [] := by
  rintro rfl
  cases h.ignoring

theorem trim_negation (h : IsIgnoreLine p) : trim ('!' :: p) = '!' :: p := by
  have hb : ¬ allBlank p = true := by
    intro hb
    exact h.ne_nil (h.trimmed.symm.trans (trim_of_allBlank hb))
  have hend : trimEnd p = p := by
    rw [← h.trimmed, trim, trimEnd_trimEnd]
  rw [trim_cons_of_not rfl, trimEnd_cons_of_not hb, hend]

theorem ignores_alone (h : IsIgnoreLine p) :
    (Rules.ofText (String.ofList p)).ignores path = true ↔
      matchesPattern (Rules.withoutSlash (String.ofList p)) (Rules.withoutSlash path) =
        true ∨
        matchesPattern (String.ofList p) path = true := by
  have hl : fileLines (String.ofList p) = [p] := by
    have hread : fileLines (String.ofList (unlines [p])) = [p] :=
      fileLines_unlines (List.forall_mem_singleton.2 ⟨h.trimmed, h.ne_nil, h.oneLine⟩)
    simpa [unlines] using hread
  have hi := h.ignoring
  have hn : ¬ Reincluded (String.ofList p) path := by
    rintro ⟨pattern, hp, -⟩
    rw [hl, List.mem_singleton] at hp
    cases hp
    cases hi
  rw [Rules.ignores_ofText, and_iff_left hn, Excluded, hl]
  simp [hi]

theorem takesBack_iff (h : IsIgnoreLine p) :
    TakesBack p path ↔ matchesPattern (String.ofList p) path = true := by
  constructor
  · intro hb
    -- the negation beside a line that ignores everything
    obtain ⟨text, hl⟩ : ∃ text, fileLines text = ['!' :: p, ['*']] := by
      refine ⟨_, fileLines_unlines ?_⟩
      rw [List.forall_mem_cons, List.forall_mem_singleton]
      have hn : '\n' ∉ '!' :: p := by simpa using h.oneLine
      exact ⟨⟨h.trim_negation, List.cons_ne_nil _ _, hn⟩, rfl,
        List.cons_ne_nil _ _, by decide⟩
    have hall : matchesPattern (String.ofList ['*']) path = true := by
      have ht : tokens ['*'] = [.anyRun] := (Written.anyRun .nil).tokens_eq
      rw [matchesPattern, String.toList_ofList, ht, accepted_iff]
      exact matches_anyRun_iff.2 ⟨[], List.nil_suffix, .nil⟩
    have hx : Excluded text path := ⟨['*'], by simp [hl], rfl, .inr hall⟩
    have hr : Reincluded text path := by
      by_contra hr
      have hkept := hb text (by simp [hl])
      rw [Rules.ignores_ofText.2 ⟨hx, hr⟩] at hkept
      cases hkept
    obtain ⟨pattern, hp, hm⟩ := hr
    rw [hl, List.mem_cons, List.mem_singleton] at hp
    rcases hp with hp | hp
    · cases hp
      exact hm
    · cases hp
  · intro hm text hp
    rw [← Bool.not_eq_true, Rules.ignores_ofText]
    exact fun hi => hi.2 ⟨p, hp, hm⟩

end IsIgnoreLine

theorem ignores_congr {text text' path : String}
    (h : (fileLines text).Perm (fileLines text')) :
    (Rules.ofText text).ignores path = (Rules.ofText text').ignores path := by
  rw [Bool.eq_iff_iff, Rules.ignores_ofText, Rules.ignores_ofText]
  simp only [Excluded, Reincluded, h.mem_iff]

/-- The negation of a line takes back, in every list and wherever it stands, the texts
that the line's pattern matches as it stands, and no others.  Of the texts that the line
ignores by itself, those with as many slashes at their end as the pattern are among
them, and those with fewer are not, such as a text without a slash when the pattern has
one.  The order of the lines makes no difference to any text. -/
theorem negation_undoes_iff {p : List Char} (hp : IsIgnoreLine p) (path : String) :
    (TakesBack p path ↔ matchesPattern (String.ofList p) path = true) ∧
    ((Rules.ofText (String.ofList p)).ignores path = true →
      slashes p = slashes path.toList → TakesBack p path) ∧
    (slashes path.toList < slashes p → ¬ TakesBack p path) ∧
    ∀ text text', (fileLines text).Perm (fileLines text') →
      (Rules.ofText text).ignores path = (Rules.ofText text').ignores path := by
  have hmatches : matchesPattern (String.ofList p) path = true ↔
      Matches (tokens p) path.toList := by
    rw [matchesPattern, String.toList_ofList, accepted_iff]
  refine ⟨hp.takesBack_iff, ?_, ?_, fun _ _ => ignores_congr⟩
  · intro hi hs
    rw [hp.takesBack_iff, hmatches]
    rcases hp.ignores_alone.1 hi with hm | hm
    · rw [matchesPattern, Rules.withoutSlash, Rules.withoutSlash, String.toList_ofList,
        String.toList_ofList, String.toList_ofList, accepted_iff] at hm
      exact (matches_dropEndWhile_iff hs).1 hm
    · exact hmatches.1 hm
  · intro hs hb
    have hm := hmatches.1 (hp.takesBack_iff.1 hb)
    exact absurd (slashes_le_of_matches hm) (Nat.not_le.2 hs)

/-- The negation stands at the other end of the list, and the slashes are
matched with the rest. -/
theorem negation_undoes_iff_slash :
    IsIgnoreLine "data/".toList ∧ (Rules.ofText "data/").ignores "data/" = true ∧
      (Rules.ofText "!data/\ndata/").ignores "data/" = false := by
  have hp : IsIgnoreLine "data/".toList := ⟨by decide, by decide, by decide⟩
  have hi : (Rules.ofText "data/").ignores "data/" = true := by decide +kernel
  exact ⟨hp, hi, (negation_undoes_iff hp "data/").2.1 hi (by decide) _ (by decide)⟩

/-- A pattern with a slash at its end ignores a text without one, and its negation does
not take that back. -/
theorem negation_without_slash :
    ¬ ∀ p path text, IsIgnoreLine p →
      (Rules.ofText (String.ofList p)).ignores path = true →
      '!' :: p ∈ fileLines text → (Rules.ofText text).ignores path = false := by
  intro hall
  have hkept := hall "data/".toList "data" "data/\n!data/"
    ⟨by decide, by decide, by decide⟩ (by decide +kernel)
    (by decide)
  exact absurd hkept (by decide +kernel)

end NotebookService.Ignore
