/-
# `NotebookService.Proofs.Ignore.Reincluded` — when a line keeps what others ignore

An entry of a source tree is asked about twice, by its path below the root and by its
own name, and it is left out when the answer is yes either time.  For one text a line
that takes back wins over all the others, wherever it stands; for the entry it does not,
since it need not match both texts.  A line `!keep.log` takes back the name of
`sub/keep.log`, and `sub/*` still ignores its path.

`reinclusion_keeps_iff` says what is asked of the lines of an ignore file: each of the
two texts that some line ignores has to be taken back by some line.  At the top of the
tree the two texts are one, and there a line that takes back always wins.

Rules are read line by line, so first it is said what one line adds to
them (`mem_ignored_addLine`, `mem_reincluded_addLine`), and from that
what they hold in the end.
-/
import NotebookService.Ignore.Rules
import NotebookService.Project.Listing

namespace NotebookService.Ignore

open NotebookService.Text NotebookService.Files NotebookService.Project

/-- The lines of an ignore file without the blanks around them. -/
def fileLines (text : String) : List (List Char) := (lines text.toList).map trim

/-- A line that is a pattern for what to ignore. -/
def isIgnoring (line : List Char) : Bool :=
  line ≠ [] && line.head? ≠ some '#' && line.head? ≠ some '!'

/-- Some line ignores the text.  A slash at either end makes no difference to it. -/
def Excluded (text path : String) : Prop :=
  ∃ l ∈ fileLines text, isIgnoring l = true ∧
    (matchesPattern (Rules.withoutSlash (String.ofList l)) (Rules.withoutSlash path) =
      true ∨
      matchesPattern (String.ofList l) path = true)

/-- Some line takes the text back. -/
def Reincluded (text path : String) : Prop :=
  ∃ pattern, '!' :: pattern ∈ fileLines text ∧
    matchesPattern (String.ofList pattern) path = true

namespace Rules

variable {r : Rules} {l : List Char} {ls : List (List Char)} {p : String}

/-! ## What the lines hold -/

theorem mem_ignored_addLine :
    p ∈ (r.addLine l).ignored ↔ p ∈ r.ignored ∨ isIgnoring l = true ∧
      p = String.ofList l := by
  unfold addLine
  split
  · simp [isIgnoring]
  · simp [isIgnoring]
  · simp [isIgnoring]
  · rename_i hn hc ht
    have hl : isIgnoring l = true := by
      cases l with
      | nil => exact absurd rfl hn
      | cons c l =>
          have hc : c ≠ '#' := by
            rintro rfl
            exact hc l rfl
          have ht : c ≠ '!' := by
            rintro rfl
            exact ht l rfl
          simp [isIgnoring, hc, ht]
    rw [List.mem_append, List.mem_singleton, hl]
    simp

theorem mem_reincluded_addLine :
    p ∈ (r.addLine l).reincluded ↔ p ∈ r.reincluded ∨ l = '!' :: p.toList := by
  unfold addLine
  split
  · simp
  · simp
  · rename_i pattern
    rw [List.mem_append, List.mem_singleton, List.cons_eq_cons]
    constructor
    · rintro (h | rfl)
      · exact .inl h
      · exact .inr ⟨rfl, (String.toList_ofList).symm⟩
    · rintro (h | ⟨-, rfl⟩)
      · exact .inl h
      · exact .inr String.ofList_toList.symm
  · rename_i ht
    have hl : l ≠ '!' :: p.toList := fun he => ht _ he
    simp [hl]

theorem mem_ignored_addLines :
    p ∈ (ls.foldl addLine r).ignored ↔ p ∈ r.ignored ∨ ∃ l ∈ ls, isIgnoring l = true ∧
      p = String.ofList l := by
  induction ls generalizing r with
  | nil => simp
  | cons l ls ih =>
      rw [List.foldl_cons, ih, mem_ignored_addLine, or_assoc]
      simp only [List.mem_cons, or_and_right, exists_or, exists_eq_left]

theorem mem_reincluded_addLines :
    p ∈ (ls.foldl addLine r).reincluded ↔ p ∈ r.reincluded ∨ '!' :: p.toList ∈ ls := by
  induction ls generalizing r with
  | nil => simp
  | cons l ls ih =>
      rw [List.foldl_cons, ih, mem_reincluded_addLine, List.mem_cons, or_assoc, eq_comm]

theorem mem_ignored_ofText {text : String} :
    p ∈ (ofText text).ignored ↔ ∃ l ∈ fileLines text, isIgnoring l = true ∧
      p = String.ofList l := by
  rw [ofText, mem_ignored_addLines]
  simp [empty, fileLines]

theorem mem_reincluded_ofText {text : String} :
    p ∈ (ofText text).reincluded ↔ '!' :: p.toList ∈ fileLines text := by
  rw [ofText, mem_reincluded_addLines]
  simp [empty, fileLines]

/-! ## One text -/

theorem any_reincluded_ofText {text path : String} :
    (ofText text).reincluded.any (matchesPattern · path) = true ↔
      Reincluded text path := by
  rw [List.any_eq_true]
  constructor
  · rintro ⟨p, hp, hm⟩
    exact ⟨p.toList, mem_reincluded_ofText.1 hp, by rwa [String.ofList_toList]⟩
  · rintro ⟨pattern, hp, hm⟩
    exact ⟨String.ofList pattern,
      mem_reincluded_ofText.2 (by rwa [String.toList_ofList]), hm⟩

/-- For one text, a line that takes it back wins over all lines that ignore it. -/
theorem ignores_ofText {text path : String} :
    (ofText text).ignores path = true ↔ Excluded text path ∧ ¬ Reincluded text path := by
  rw [ignores, Bool.and_eq_true, Bool.not_eq_true', ← Bool.not_eq_true,
    any_reincluded_ofText, and_comm, List.any_eq_true]
  refine and_congr_left fun _ => ?_
  constructor
  · rintro ⟨p, hp, hm⟩
    obtain ⟨l, hl, hi, rfl⟩ := mem_ignored_ofText.1 hp
    exact ⟨l, hl, hi, by simpa using hm⟩
  · rintro ⟨l, hl, hi, hm⟩
    exact ⟨String.ofList l, mem_ignored_ofText.2 ⟨l, hl, hi, rfl⟩, by simpa using hm⟩

end Rules

/-! ## An entry -/

theorem isIgnored_eq_false_iff {text : String} {place : Place} {name : String} :
    Listing.isIgnored (.ofText text) place name = false ↔
      (Excluded text place.text → Reincluded text place.text) ∧
        (Excluded text name → Reincluded text name) := by
  rw [Listing.isIgnored, Bool.or_eq_false_iff, ← Bool.not_eq_true, ← Bool.not_eq_true,
    Rules.ignores_ofText, Rules.ignores_ofText, not_and, not_and, Classical.not_not,
    Classical.not_not]

/-- An entry is kept if and only if its path and its name are each taken back when a
line ignores them.  So a line that takes back one of the two keeps the entry only if the
other is not ignored, or taken back as well; at the top of the tree it always does. -/
theorem reinclusion_keeps_iff (text : String) (above : Place) (name : String) :
    (Listing.isIgnored (.ofText text) (above ++ [name]) name = false ↔
      (Excluded text (above ++ [name]).text → Reincluded text (above ++ [name]).text) ∧
        (Excluded text name → Reincluded text name)) ∧
    (Reincluded text name → Listing.isIgnored (.ofText text) [name] name = false) := by
  refine ⟨isIgnored_eq_false_iff,
    fun h => isIgnored_eq_false_iff.2 ⟨fun _ => ?_, fun _ => h⟩⟩
  rwa [Place.text, String.intercalate_singleton]

/-- The name of the entry is taken back, and its path is still ignored. -/
theorem reincluded_name_ignored :
    Reincluded "sub/*\n!keep.log" "keep.log" ∧
      Listing.isIgnored (.ofText "sub/*\n!keep.log") ["sub", "keep.log"] "keep.log" =
        true :=
  ⟨⟨"keep.log".toList, by decide +kernel, by decide +kernel⟩, by decide +kernel⟩

end NotebookService.Ignore
