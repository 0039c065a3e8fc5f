/-
# `NotebookService.Proofs.Endpoint.Path` — which parameters a path has

A path brings in a value for every `/{word}` in it.  `LeftmostNames` says by the text
alone which these are: the first place at which one begins is taken, and the next one is
looked for behind its closing brace.  Braces around nothing, around anything else than a
word or without an end are part of the path and hide no parameter behind them.

The search for them goes in rounds.  Each finds the next slash with a brace behind it
and goes on behind the closing brace, or, where no parameter begins there, behind the
opening one.  Nothing is missed by the second step, since a parameter begins with a
slash and what is passed over there is a brace.  Either way a round takes two characters
or more, which bounds the number of rounds.
-/
import NotebookService.Endpoint.Route
import NotebookService.Proofs.Text.Trim

namespace NotebookService

open NotebookService.Text

/-! ## Parameters -/

/-- Word characters, at least one. -/
structure IsPathWord (w : List Char) : Prop where
  ne_nil : w ≠ []
  word : w.all isWordChar = true

/-- A word in braces, behind a slash. -/
def pathParameter (w : List Char) : List Char := '/' :: '{' :: (w ++ ['}'])

/-- The text begins with a parameter. -/
def OpensParameter (s : List Char) : Prop := ∃ w, IsPathWord w ∧ pathParameter w <+: s

variable {s t w rest : List Char} {c : Char} {names : List (List Char)}

theorem pathParameter_append (w rest : List Char) :
    pathParameter w ++ rest = '/' :: '{' :: (w ++ '}' :: rest) := by
  simp [pathParameter]

theorem OpensParameter.exists_append (h : OpensParameter s) :
    ∃ w rest, IsPathWord w ∧ s = pathParameter w ++ rest := by
  obtain ⟨w, hw, rest, hs⟩ := h
  exact ⟨w, rest, hw, hs.symm⟩

theorem IsPathWord.opensParameter (hw : IsPathWord w) (rest : List Char) :
    OpensParameter (pathParameter w ++ rest) :=
  ⟨w, hw, List.prefix_append (pathParameter w) rest⟩

theorem not_opensParameter_cons (h : c = '/' → s.head? ≠ some '{') :
    ¬ OpensParameter (c :: s) := by
  intro ho
  obtain ⟨w, rest, -, hs⟩ := ho.exists_append
  rw [pathParameter_append] at hs
  obtain ⟨hc, hs⟩ := List.cons.inj hs
  exact h hc (by rw [hs, List.head?_cons])

/-- Behind a brace that does not close a word the word ends where it ends. -/
theorem IsPathWord.takeWhile_eq (hw : IsPathWord w) (rest : List Char) :
    (w ++ '}' :: rest).takeWhile isWordChar = w := by
  rw [takeWhile_append_cons_of_not rfl]
  exact List.takeWhile_eq_self_iff.2 (List.all_eq_true.1 hw.word)

theorem IsPathWord.dropWhile_eq (hw : IsPathWord w) (rest : List Char) :
    (w ++ '}' :: rest).dropWhile isWordChar = '}' :: rest := by
  rw [List.dropWhile_append_of_pos (List.all_eq_true.1 hw.word)]
  exact List.dropWhile_cons_of_neg (by decide)

/-! ## Reading the names -/

theorem pathNames_nil : pathNames [] = [] := by
  rw [pathNames]

theorem pathNames_parameter (hw : IsPathWord w) (rest : List Char) :
    pathNames (pathParameter w ++ rest) = w :: pathNames rest := by
  have hne : w.isEmpty = false := List.isEmpty_eq_false_iff.2 hw.ne_nil
  rw [pathParameter_append, pathNames]
  split
  · rename_i rest' hd
    rw [hw.dropWhile_eq] at hd
    obtain ⟨-, rfl⟩ := List.cons.inj hd
    rw [hw.takeWhile_eq]
    exact if_neg (by simp [hne])
  · rename_i hd
    exact absurd (hw.dropWhile_eq rest) (hd rest)

theorem pathNames_cons (h : ¬ OpensParameter (c :: s)) :
    pathNames (c :: s) = pathNames s := by
  by_cases hb : ∃ t, c = '/' ∧ s = '{' :: t
  · obtain ⟨t, rfl, rfl⟩ := hb
    have hbrace : pathNames ('{' :: t) = pathNames t := pathNames.eq_3 _ _ (by simp)
    rw [pathNames, hbrace]
    split
    · rename_i rest hd
      split
      · rfl
      · rename_i hne
        have hw : IsPathWord (t.takeWhile isWordChar) :=
          ⟨by simpa using hne, List.all_takeWhile⟩
        have ht : t = t.takeWhile isWordChar ++ '}' :: rest := by
          rw [← hd, List.takeWhile_append_dropWhile]
        refine absurd ?_ h
        rw [ht, ← pathParameter_append]
        exact hw.opensParameter rest
    · rfl
  · refine pathNames.eq_3 _ _ ?_
    intro t hc hs
    exact hb ⟨t, hc, hs⟩

/-! ## The leftmost parameters -/

/-- The words of the parameters that do not overlap, each the first one behind
the one before it. -/
inductive LeftmostNames : List Char → List (List Char) → Prop where
  /-- A parameter begins nowhere. -/
  | none {s : List Char} (h : ∀ t, t <:+ s → ¬ OpensParameter t) : LeftmostNames s []
  /-- The first parameter stands behind a text in which none begins. -/
  | next {before w rest : List Char} {names : List (List Char)} (hw : IsPathWord w)
      (h : ∀ t, t <:+ before → t ≠ [] → ¬ OpensParameter (t ++ (pathParameter w ++ rest)))
      (hrest : LeftmostNames rest names) :
      LeftmostNames (before ++ (pathParameter w ++ rest)) (w :: names)

theorem LeftmostNames.cons (hc : ¬ OpensParameter (c :: s)) (h : LeftmostNames s names) :
    LeftmostNames (c :: s) names := by
  cases h with
  | none h =>
      refine .none ?_
      intro t ht
      rcases List.suffix_cons_iff.1 ht with rfl | ht
      · exact hc
      · exact h t ht
  | @next before w rest names hw h hrest =>
      have hnone : ∀ t, t <:+ c :: before → t ≠ [] →
          ¬ OpensParameter (t ++ (pathParameter w ++ rest)) := by
        intro t ht hne
        rcases List.suffix_cons_iff.1 ht with rfl | ht
        · exact hc
        · exact h t ht hne
      exact .next hw hnone hrest

/-- The names of a path are those of its leftmost parameters. -/
theorem leftmost_pathNames (s : List Char) : LeftmostNames s (pathNames s) := by
  match s with
  | [] =>
      rw [pathNames_nil]
      refine .none ?_
      rintro t ht ⟨w, -, hw⟩
      rw [List.suffix_nil.1 ht] at hw
      exact absurd (List.prefix_nil.1 hw) (by simp [pathParameter])
  | c :: s =>
      by_cases h : OpensParameter (c :: s)
      · obtain ⟨w, rest, hw, hs⟩ := h.exists_append
        have hlt : rest.length < (c :: s).length := by
          rw [hs, pathParameter_append]
          simp only [List.length_cons, List.length_append]
          omega
        have hnone : ∀ t, t <:+ ([] : List Char) → t ≠ [] →
            ¬ OpensParameter (t ++ (pathParameter w ++ rest)) := by
          intro t ht hne
          exact absurd (List.suffix_nil.1 ht) hne
        rw [hs, pathNames_parameter hw]
        exact .next hw hnone (leftmost_pathNames rest)
      · rw [pathNames_cons h]
        exact (leftmost_pathNames s).cons h
termination_by s.length
decreasing_by
  · exact hlt
  · exact Nat.lt_succ_self s.length

theorem pathNames_append {before : List Char}
    (h : ∀ t, t <:+ before → t ≠ [] → ¬ OpensParameter (t ++ s)) :
    pathNames (before ++ s) = pathNames s := by
  induction before with
  | nil => rfl
  | cons c before ih =>
      have hc : ¬ OpensParameter (c :: (before ++ s)) :=
        h (c :: before) List.suffix_rfl (List.cons_ne_nil c before)
      rw [List.cons_append, pathNames_cons hc]
      refine ih ?_
      intro t ht
      exact h t (ht.trans (List.suffix_cons c before))

theorem LeftmostNames.eq_pathNames (h : LeftmostNames s names) : names = pathNames s := by
  induction h with
  | @none s h =>
      have hall : ∀ t, t <:+ s → t ≠ [] → ¬ OpensParameter (t ++ []) := by
        intro t ht _
        rw [List.append_nil]
        exact h t ht
      have hs := pathNames_append hall
      rw [List.append_nil, pathNames_nil] at hs
      exact hs.symm
  | next hw h _ ih => rw [pathNames_append h, pathNames_parameter hw, ih]

/-! ## The rounds of the search -/

/-- The text behind the first slash with a brace behind it. -/
def behindBrace? : List Char → Option (List Char)
  | [] => none
  | '/' :: '{' :: s => some s
  | _ :: s => behindBrace? s

/-- A search that ends after a number of rounds, with the names that it finds.  A round
goes to the next `/{`, and from there on behind the parameter that begins there, or, if
none does, on behind the brace. -/
inductive PathRounds : Nat → List Char → List (List Char) → Prop where
  | stop {s : List Char} (hs : behindBrace? s = none) : PathRounds 0 s []
  | found {n : Nat} {s w rest : List Char} {names : List (List Char)}
      (hs : behindBrace? s = some (w ++ '}' :: rest))
      (hw : IsPathWord w) (h : PathRounds n rest names) :
      PathRounds (n + 1) s (w :: names)
  | missed {n : Nat} {s t : List Char} {names : List (List Char)}
      (hs : behindBrace? s = some t)
      (ht : ¬ OpensParameter ('/' :: '{' :: t)) (h : PathRounds n t names) :
      PathRounds (n + 1) s names

theorem PathRounds.cons {n : Nat} (hb : ∀ t, c = '/' → s = '{' :: t → False)
    (h : PathRounds n s names) :
    PathRounds n (c :: s) names := by
  have he : behindBrace? (c :: s) = behindBrace? s := behindBrace?.eq_3 _ _ hb
  cases h with
  | stop hs => exact .stop (he.trans hs)
  | found hs hw h => exact .found (he.trans hs) hw h
  | missed hs ht h => exact .missed (he.trans hs) ht h

/-- The search ends on every text, after at most one round for every two characters, and
finds the names of the path. -/
theorem exists_rounds (s : List Char) :
    ∃ n, 2 * n ≤ s.length ∧ PathRounds n s (pathNames s) := by
  match s with
  | [] => exact ⟨0, Nat.le_refl 0, by rw [pathNames_nil]; exact .stop rfl⟩
  | c :: s =>
      by_cases hb : ∃ t, c = '/' ∧ s = '{' :: t
      · obtain ⟨t, rfl, rfl⟩ := hb
        by_cases h : OpensParameter ('/' :: '{' :: t)
        · obtain ⟨w, rest, hw, hs⟩ := h.exists_append
          have hlt : rest.length + 2 ≤ ('/' :: '{' :: t).length := by
            rw [hs, pathParameter_append]
            simp only [List.length_cons, List.length_append]
            omega
          obtain ⟨n, hn, hr⟩ := exists_rounds rest
          refine ⟨n + 1, by omega, ?_⟩
          rw [hs, pathNames_parameter hw, pathParameter_append]
          exact .found rfl hw hr
        · obtain ⟨n, hn, hr⟩ := exists_rounds t
          have hbrace : ¬ OpensParameter ('{' :: t) := not_opensParameter_cons (by simp)
          refine ⟨n + 1, by simp only [List.length_cons]; omega, ?_⟩
          rw [pathNames_cons h, pathNames_cons hbrace]
          exact .missed rfl h hr
      · have hcons : ∀ t, c = '/' → s = '{' :: t → False := by
          intro t hc hs
          exact hb ⟨t, hc, hs⟩
        obtain ⟨n, hn, hr⟩ := exists_rounds s
        refine ⟨n, by simp only [List.length_cons]; omega, ?_⟩
        rw [pathNames.eq_3 _ _ hcons]
        exact hr.cons hcons
termination_by s.length
decreasing_by
  all_goals
    subst_vars
    simp only [List.length_cons] at *
    omega

/-! ## Paths written by segments -/

/-- What stands between two slashes of a path: a word in braces, or a text without
slashes and braces. -/
inductive PathSegment where
  | name (w : List Char) (h : IsPathWord w)
  | literal (s : List Char) (h : ∀ c ∈ s, c ≠ '/' ∧ c ≠ '{' ∧ c ≠ '}')

namespace PathSegment

def written : PathSegment → List Char
  | name w _ => '{' :: (w ++ ['}'])
  | literal s _ => s

def name? : PathSegment → Option (List Char)
  | name w _ => some w
  | literal _ _ => none

/-- The path of these segments, a slash in front of each. -/
def path (gs : List PathSegment) : List Char := gs.flatMap fun g => '/' :: g.written

theorem path_cons (g : PathSegment) (gs : List PathSegment) :
    path (g :: gs) = '/' :: (g.written ++ path gs) := by
  simp [path]

theorem head?_path_ne (gs : List PathSegment) : (path gs).head? ≠ some '{' := by
  cases gs with
  | nil => simp [path]
  | cons g gs =>
      rw [path_cons]
      simp

theorem pathNames_path (gs : List PathSegment) :
    pathNames (path gs) = gs.filterMap name? := by
  induction gs with
  | nil => exact pathNames_nil
  | cons g gs ih =>
      rw [path_cons]
      cases g with
      | name w h =>
          have hp := pathNames_parameter h (path gs)
          rw [ih] at hp
          exact hp
      | literal s h =>
          -- No character of the literal is the slash of a parameter, and none behind
          -- its own slash is a brace.
          have hslash : ¬ OpensParameter ('/' :: (s ++ path gs)) := by
            refine not_opensParameter_cons fun _ => ?_
            cases s with
            | nil => exact head?_path_ne gs
            | cons c s =>
                intro hc
                exact (h c List.mem_cons_self).2.1 (Option.some.inj hc)
          have hinside : ∀ t, t <:+ s → t ≠ [] → ¬ OpensParameter (t ++ path gs) := by
            intro t ht hne
            obtain ⟨c, u, rfl⟩ := List.exists_cons_of_ne_nil hne
            refine not_opensParameter_cons fun hc => ?_
            exact absurd hc (h c (ht.mem List.mem_cons_self)).1
          show pathNames ('/' :: (s ++ path gs)) = gs.filterMap name?
          rw [pathNames_cons hslash, pathNames_append hinside, ih]

end PathSegment

/-! ## The parameters of a path -/

/-- The parameters of a path are the leftmost ones that do not overlap, in order.
In a path made of segments these are the segments in braces.  The search for them
ends on every path. -/
theorem path_params_leftmost (path : String) (segments : List PathSegment) :
    (∀ names, LeftmostNames path.toList names ↔
      pathParams path = names.map String.ofList) ∧
    pathParams (String.ofList (PathSegment.path segments)) =
      (segments.filterMap PathSegment.name?).map String.ofList ∧
    ∃ rounds, 2 * rounds ≤ path.length ∧
      PathRounds rounds path.toList (pathNames path.toList) := by
  refine ⟨?_, ?_, ?_⟩
  · intro names
    constructor
    · intro h
      rw [pathParams, h.eq_pathNames]
    · intro h
      have hinj : Function.Injective (String.ofList) :=
        fun s t he => String.ofList_injective he
      have hnames : pathNames path.toList = names := List.map_injective_iff.2 hinj h
      exact hnames ▸ leftmost_pathNames path.toList
  · rw [pathParams, String.toList_ofList, PathSegment.pathNames_path]
  · rw [← String.length_toList]
    exact exists_rounds path.toList

example : pathParams "/a/{x}.json/{b-c}/{y_2}" = ["x", "y_2"] := by decide +kernel

end NotebookService
