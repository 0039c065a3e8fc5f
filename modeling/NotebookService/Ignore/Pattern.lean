/-
# `NotebookService.Ignore.Pattern` — shell-style patterns

A pattern is matched against a whole text.  `*` stands for any run of characters,
slashes among them, `?`  for one character, `[seq]` for one character of a class and
`[!seq]` for one outside it; every other character stands for itself, and so does a `[`
whose class is never closed.

`Matches` says what that means by cutting the text into pieces.  A `Scan` decides it and
goes through the text from the front.  Where the tokens behind a run do not match, it
lets the run take more, but it never goes back behind the last run that it came to, so
the number of its rounds is bounded (`Scan.roundsLeft`).
-/

namespace NotebookService.Ignore

/-- Both ends belong to a range. -/
structure CharRange where
  first : Char
  last : Char
  deriving DecidableEq, Repr

def CharRange.contains (r : CharRange) (c : Char) : Bool := r.first ≤ c && c ≤ r.last

/-- The part of a pattern that stands for one piece of the text. -/
inductive Token where
  | anyRun
  | anyChar
  | char (c : Char)
  | oneOf (negated : Bool) (ranges : List CharRange)
  deriving DecidableEq, Repr

namespace Token

/-- A token for one character stands for this one.  `anyRun` is not such a token. -/
def accepts : Token → Char → Bool
  | .anyRun, _ => false
  | .anyChar, _ => true
  | .char c, x => c = x
  | .oneOf negated ranges, x => (ranges.any (·.contains x)) != negated

end Token

/-! ## Reading a pattern -/

/-- The members of a class up to its closing bracket, and the pattern behind it.  A
bracket in the first place is a member.  A dash makes a range unless nothing or the
closing bracket follows. -/
def readRanges? (first : Bool) : List Char → Option (List CharRange × List Char)
  | [] => none
  | c :: s =>
    if c = ']' && !first then some ([], s)
    else match s with
      | '-' :: d :: t =>
        if d = ']' then
          (readRanges? false ('-' :: d :: t)).map fun (rs, rest) => (⟨c, c⟩ :: rs, rest)
        else (readRanges? false t).map fun (rs, rest) => (⟨c, d⟩ :: rs, rest)
      | s => (readRanges? false s).map fun (rs, rest) => (⟨c, c⟩ :: rs, rest)

theorem length_readRanges? {first : Bool} {s rest : List Char} {rs : List CharRange}
    (h : readRanges? first s = some (rs, rest)) : rest.length < s.length := by
  fun_induction readRanges? first s generalizing rs rest with
  | case1 => simp at h
  | case2 =>
    cases h
    simp
  | case3 =>
    rename_i ih
    obtain ⟨⟨qs, r⟩, hr, he⟩ := Option.map_eq_some_iff.1 h
    cases he
    have := ih hr
    simp only [List.length_cons] at this ⊢
    omega
  | case4 =>
    rename_i ih
    obtain ⟨⟨qs, r⟩, hr, he⟩ := Option.map_eq_some_iff.1 h
    cases he
    have := ih hr
    simp only [List.length_cons]
    omega
  | case5 =>
    rename_i ih
    obtain ⟨⟨qs, r⟩, hr, he⟩ := Option.map_eq_some_iff.1 h
    cases he
    have := ih hr
    simp only [List.length_cons]
    omega

/-- A class behind its opening bracket. -/
def readClass? : List Char → Option (Token × List Char)
  | '!' :: s => (readRanges? true s).map fun (rs, rest) => (.oneOf true rs, rest)
  | s => (readRanges? true s).map fun (rs, rest) => (.oneOf false rs, rest)

theorem length_readClass? {s rest : List Char} {t : Token}
    (h : readClass? s = some (t, rest)) : rest.length < s.length := by
  unfold readClass? at h
  split at h <;>
  · obtain ⟨⟨rs, r⟩, hr, he⟩ := Option.map_eq_some_iff.1 h
    cases he
    have := length_readRanges? hr
    grind

/-- The tokens of a pattern. -/
def tokens : List Char → List Token
  | [] => []
  | '*' :: s => .anyRun :: tokens s
  | '?' :: s => .anyChar :: tokens s
  | '[' :: s =>
    match _h : readClass? s with
    | some (t, rest) => t :: tokens rest
    | none => .char '[' :: tokens s
  | c :: s => .char c :: tokens s
termination_by s => s.length
decreasing_by
  · simp
  · simp
  · have := length_readClass? _h
    simp only [List.length_cons]
    omega
  · simp
  · simp

/-! ## Matching -/

/-- The text can be cut into pieces that the tokens stand for, in order. -/
inductive Matches : List Token → List Char → Prop
  | nil : Matches [] []
  | run {ts : List Token} (piece : List Char) {s : List Char} :
      Matches ts s → Matches (.anyRun :: ts) (piece ++ s)
  | one {t : Token} {ts : List Token} {c : Char} {s : List Char} :
      t.accepts c = true → Matches ts s → Matches (t :: ts) (c :: s)

/-- A scan of a text.  Where it comes to a run it goes on with what is behind, and
when that does not match it lets the run take one character more.  It only ever goes
back to the last run. -/
structure Scan where
  tokens : List Token
  text : List Char
  /-- The tokens behind the last run, and the text of the next try with them. -/
  retry : Option (List Token × List Char)
  deriving DecidableEq, Repr

namespace Scan

def ofText (ts : List Token) (text : List Char) : Scan := ⟨ts, text, none⟩

/-- The next try behind the last run; without a run the scan has failed. -/
def again (s : Scan) : Except Bool Scan :=
  match s.retry with
  | none => .error false
  | some (ts, text) => .ok ⟨ts, text, some (ts, text.tail)⟩

/-- One round of the scan, or the answer in which it ends. -/
def next (s : Scan) : Except Bool Scan :=
  match s.text, s.tokens with
  | [], ts => .error (ts.all (· = .anyRun))
  | c :: text, .anyRun :: ts => .ok ⟨ts, c :: text, some (ts, text)⟩
  | c :: text, t :: ts => if t.accepts c then .ok ⟨ts, text, s.retry⟩ else s.again
  | _ :: _, [] => s.again

variable {s s' : Scan}

theorem next_char {t : Token} {ts : List Token} {c : Char} {text : List Char}
    {retry : Option (List Token × List Char)} (ht : t ≠ .anyRun) :
    next ⟨t :: ts, c :: text, retry⟩ =
      if t.accepts c then .ok ⟨ts, text, retry⟩
      else again ⟨t :: ts, c :: text, retry⟩ := by
  cases t <;> first | rfl | exact absurd rfl ht

/-- What a round can be: the end of the text, another run, one character
more, or the next try. -/
theorem next_cases (s : Scan) :
    (s.text = [] ∧ s.next = .error (s.tokens.all (· = .anyRun))) ∨
    (∃ ts c text, s.tokens = .anyRun :: ts ∧ s.text = c :: text ∧
      s.next = .ok ⟨ts, c :: text, some (ts, text)⟩) ∨
    (∃ t ts c text, s.tokens = t :: ts ∧ s.text = c :: text ∧ t.accepts c = true ∧
      s.next = .ok ⟨ts, text, s.retry⟩) ∨
    (s.text ≠ [] ∧ ¬ Matches s.tokens s.text ∧ s.next = s.again) := by
  obtain ⟨ts, text, retry⟩ := s
  cases text with
  | nil => exact .inl ⟨rfl, rfl⟩
  | cons c text =>
    cases ts with
    | nil => exact .inr (.inr (.inr ⟨List.cons_ne_nil c text, nofun, rfl⟩))
    | cons t ts =>
      by_cases ht : t = .anyRun
      · cases ht
        exact .inr (.inl ⟨ts, c, text, rfl, rfl, rfl⟩)
      · cases ha : t.accepts c with
        | true =>
          refine .inr (.inr (.inl ⟨t, ts, c, text, rfl, rfl, ha, ?_⟩))
          rw [next_char ht, if_pos ha]
        | false =>
          refine .inr (.inr (.inr ⟨List.cons_ne_nil c text, ?_, ?_⟩))
          · intro hm
            generalize hu : c :: text = u at hm
            cases hm with
            | run piece hm => exact ht rfl
            | one hc hm =>
              cases hu
              exact Bool.false_ne_true (ha.symm.trans hc)
          · rw [next_char ht, ha, if_neg Bool.false_ne_true]

/-! A round comes to another run, or it begins another try, or it goes on in the
text: the first ends some time, and until it happens the second does, and until that
happens the third. -/

def runsLeft (s : Scan) : Nat :=
  max (s.tokens.count .anyRun) (s.retry.elim 0 fun r => r.1.count .anyRun)

def triesLeft (s : Scan) : Nat := s.retry.elim 0 fun r => r.2.length

def widest (s : Scan) : Nat := max s.text.length s.triesLeft

/-- More rounds than are left. -/
def roundsLeft (s : Scan) : Nat :=
  (s.runsLeft * (s.widest + 1) + s.triesLeft) * (s.widest + 1) + s.text.length

theorem roundsLeft_lt_of_runsLeft (hr : s'.runsLeft < s.runsLeft)
    (hw : s'.widest ≤ s.widest) :
    s'.roundsLeft < s.roundsLeft := by
  have hl : s'.text.length ≤ s'.widest := Nat.le_max_left _ _
  have ht : s'.triesLeft ≤ s'.widest := Nat.le_max_right _ _
  have hs : s'.runsLeft * (s'.widest + 1) + s'.triesLeft + 1 ≤
      (s'.runsLeft + 1) * (s'.widest + 1) := by
    rw [Nat.succ_mul]
    omega
  calc s'.roundsLeft
    _ < (s'.runsLeft * (s'.widest + 1) + s'.triesLeft + 1) * (s'.widest + 1) := by
        rw [roundsLeft, Nat.succ_mul _ (s'.widest + 1)]
        omega
    _ ≤ (s'.runsLeft + 1) * (s'.widest + 1) * (s'.widest + 1) := Nat.mul_le_mul_right _ hs
    _ ≤ s.runsLeft * (s.widest + 1) * (s.widest + 1) :=
        Nat.mul_le_mul (Nat.mul_le_mul hr (Nat.succ_le_succ hw)) (Nat.succ_le_succ hw)
    _ ≤ (s.runsLeft * (s.widest + 1) + s.triesLeft) * (s.widest + 1) :=
        Nat.mul_le_mul_right _ (Nat.le_add_right _ _)
    _ ≤ s.roundsLeft := Nat.le_add_right _ _

theorem roundsLeft_lt_of_triesLeft (hr : s'.runsLeft ≤ s.runsLeft)
    (ht : s'.triesLeft < s.triesLeft) (hw : s'.widest ≤ s.widest) :
    s'.roundsLeft < s.roundsLeft := by
  have hl : s'.text.length ≤ s'.widest := Nat.le_max_left _ _
  have hs : s'.runsLeft * (s'.widest + 1) + s'.triesLeft + 1 ≤
      s.runsLeft * (s.widest + 1) + s.triesLeft :=
    Nat.add_lt_add_of_le_of_lt (Nat.mul_le_mul hr (Nat.succ_le_succ hw)) ht
  calc s'.roundsLeft
    _ < (s'.runsLeft * (s'.widest + 1) + s'.triesLeft + 1) * (s'.widest + 1) := by
        rw [roundsLeft, Nat.succ_mul _ (s'.widest + 1)]
        omega
    _ ≤ (s.runsLeft * (s.widest + 1) + s.triesLeft) * (s.widest + 1) :=
        Nat.mul_le_mul hs (Nat.succ_le_succ hw)
    _ ≤ s.roundsLeft := Nat.le_add_right _ _

theorem roundsLeft_lt_of_length (hr : s'.runsLeft ≤ s.runsLeft)
    (ht : s'.triesLeft ≤ s.triesLeft) (hl : s'.text.length < s.text.length) :
    s'.roundsLeft < s.roundsLeft := by
  have hw : s'.widest ≤ s.widest := by
    simp only [widest]
    omega
  refine Nat.add_lt_add_of_le_of_lt (Nat.mul_le_mul ?_ (Nat.succ_le_succ hw)) hl
  exact Nat.add_le_add (Nat.mul_le_mul hr (Nat.succ_le_succ hw)) ht

theorem roundsLeft_again (hne : s.text ≠ []) (h : s.again = .ok s') :
    s'.roundsLeft < s.roundsLeft := by
  obtain ⟨ts, text, retry⟩ := s
  cases retry with
  | none => cases h
  | some r =>
    obtain ⟨us, u⟩ := r
    cases h
    have hr : (⟨us, u, some (us, u.tail)⟩ : Scan).runsLeft ≤
        (⟨ts, text, some (us, u)⟩ : Scan).runsLeft := by
      simp only [runsLeft, Option.elim_some]
      omega
    cases u with
    | nil => exact roundsLeft_lt_of_length hr (Nat.le_refl _) (List.length_pos_iff.2 hne)
    | cons c u =>
      refine roundsLeft_lt_of_triesLeft hr (Nat.lt_succ_self _) ?_
      simp only [widest, triesLeft, Option.elim_some, List.tail_cons, List.length_cons]
      omega

theorem roundsLeft_next (h : s.next = .ok s') : s'.roundsLeft < s.roundsLeft := by
  rcases s.next_cases with ⟨-, hn⟩ | ⟨ts, c, text, hts, htext, hn⟩ | ⟨t, ts, c, text, hts,
    htext, ha, hn⟩ |
    ⟨hne, -, hn⟩ <;> rw [hn] at h
  · cases h
  · cases h
    refine roundsLeft_lt_of_runsLeft ?_ ?_
    · simp only [runsLeft, hts, Option.elim_some, List.count_cons_self]
      omega
    · simp only [widest, triesLeft, htext, Option.elim_some, List.length_cons]
      omega
  · cases h
    have ht : t ≠ .anyRun := by
      rintro rfl
      cases ha
    refine roundsLeft_lt_of_length ?_ (Nat.le_refl _) ?_
    · simp only [runsLeft, hts, List.count_cons_of_ne ht]
      omega
    · simp [htext]
  · exact roundsLeft_again hne h

/-- The answer in which a scan ends. -/
def answer (s : Scan) : Bool :=
  match _h : s.next with
  | .error b => b
  | .ok s' => s'.answer
termination_by s.roundsLeft
decreasing_by exact roundsLeft_next _h

end Scan

/-- The tokens match the text. -/
def accepted (ts : List Token) (text : List Char) : Bool := (Scan.ofText ts text).answer

/-- A pattern matches a text. -/
def matchesPattern (pattern text : String) : Bool :=
  accepted (tokens pattern.toList) text.toList

end NotebookService.Ignore
