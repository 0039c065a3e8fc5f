/-
# `NotebookService.Metadata.Key` — where a key ends

A key ends at the first colon outside brackets that is followed by a space or by the end
of the line, so `name:str` is one word and `name: str` is a key and its value.  A text
that starts with a quote is read as quoted up to the next quote of that kind; quotes
anywhere else are ordinary characters.
-/
import NotebookService.Text.Nesting

namespace NotebookService.Metadata

open NotebookService.Text

/-- The text before and after the first colon that ends a key; `depth`
brackets are open. -/
def splitAtColon? (depth : Nat) : List Char → Option (List Char × List Char)
  | [] => none
  | c :: s =>
    if c = ':' ∧ depth = 0 ∧ (s = [] ∨ s.head? = some ' ') then some ([], s)
    else
      let depth' :=
        if Nesting.isOpening c then depth + 1
        else if Nesting.isClosing c then depth - 1
        else depth
      (splitAtColon? depth' s).map fun (key, rest) => (c :: key, rest)

/-- As `splitAtColon?`, with a quoted start passed over. -/
def splitAfterQuote? : List Char → Option (List Char × List Char)
  | [] => none
  | c :: s =>
    if Nesting.isQuote c then
      match s.dropWhile (· ≠ c) with
      | [] => none
      | q :: after =>
        (splitAtColon? 0 after).map fun (key, rest) =>
          (c :: s.takeWhile (· ≠ c) ++ q :: key, rest)
    else splitAtColon? 0 (c :: s)

/-- A key and what follows its colon, both trimmed towards it. -/
def splitKey? (s : List Char) : Option (List Char × List Char) :=
  (splitAfterQuote? s).map fun (key, rest) => (trimEnd key, trim rest)

/-! ## Sizes

The readers of values recurse on the two parts, which are never longer than the whole. -/

theorem length_dropEndWhile_le (p : Char → Bool) (s : List Char) :
    (dropEndWhile p s).length ≤ s.length := by
  induction s with
  | nil => simp [dropEndWhile]
  | cons c s ih =>
    simp only [dropEndWhile]
    split
    · split <;> simp
    · simp only [List.length_cons]
      omega

theorem length_trimEnd_le (s : List Char) : (trimEnd s).length ≤ s.length :=
  length_dropEndWhile_le isBlank s

theorem length_trimStart_le (s : List Char) : (trimStart s).length ≤ s.length :=
  (List.dropWhile_sublist _).length_le

theorem length_trim_le (s : List Char) : (trim s).length ≤ s.length :=
  Nat.le_trans (length_trimEnd_le _) (length_trimStart_le s)

theorem length_splitAtColon? {depth : Nat} {s key rest : List Char}
    (h : splitAtColon? depth s = some (key, rest)) :
    key.length + rest.length < s.length := by
  induction s generalizing depth key rest with
  | nil => simp [splitAtColon?] at h
  | cons c s ih =>
    simp only [splitAtColon?] at h
    split at h
    · cases h
      simp
    · obtain ⟨⟨k, r⟩, hk, he⟩ := Option.map_eq_some_iff.1 h
      cases he
      have := ih hk
      simp only [List.length_cons]
      omega

theorem length_splitAfterQuote? {s key rest : List Char}
    (h : splitAfterQuote? s = some (key, rest)) :
    key.length + rest.length < s.length := by
  cases s with
  | nil => simp [splitAfterQuote?] at h
  | cons c s =>
    simp only [splitAfterQuote?] at h
    split at h
    · split at h
      · simp at h
      · rename_i q after hd
        obtain ⟨⟨k, r⟩, hk, he⟩ := Option.map_eq_some_iff.1 h
        cases he
        have h1 := length_splitAtColon? hk
        have h2 := congrArg List.length
            (List.takeWhile_append_dropWhile (p := (· ≠ c)) (l := s))
        rw [hd] at h2
        simp only [List.length_append, List.length_cons] at h2 ⊢
        omega
    · exact length_splitAtColon? h

theorem length_splitKey? {s key rest : List Char} (h : splitKey? s = some (key, rest)) :
    key.length + rest.length < s.length := by
  obtain ⟨⟨k, r⟩, hk, he⟩ := Option.map_eq_some_iff.1 h
  cases he
  have h1 := length_splitAfterQuote? hk
  have h2 := length_trimEnd_le k
  have h3 := length_trim_le r
  omega

end NotebookService.Metadata
