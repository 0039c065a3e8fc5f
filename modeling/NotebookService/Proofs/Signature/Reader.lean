/-
# `NotebookService.Proofs.Signature.Reader` — the reader of a parameter list

`parameterText?`  runs to the parenthesis that closes the list and gives nothing if
there is none, so its value does not show what happens on the way.  Here the same
reading is a run with one step for a character, and a text may be cut anywhere: `after`
says where the reader stands behind a part of it, and `copied` what it has taken over
from that part.  `parameterText?_eq_read?`  puts the two together again.

Comments leave nothing behind but blanks.  Where a blank stands already, more of them
change no name, unless the blanks stand in the middle of one (`parameterNames_widen`).
-/
import NotebookService.Proofs.Signature.Line
import NotebookService.Proofs.Text.TopLevel

namespace NotebookService.Signature

open NotebookService.Text

variable {s t u w : List Char} {n : Nesting} {c : Char}

/-! ## Blanks -/

/-- What is open as a quote is one. -/
def Quoted (n : Nesting) : Prop := ∀ q ∈ n.quote, Nesting.isQuote q = true

theorem quoted_of_quote_eq_none (h : n.quote = none) : Quoted n := by
  intro q hq
  rw [h] at hq
  cases hq

theorem Quoted.step (h : Quoted n) (c : Char) : Quoted (n.step c) := by
  rw [Nesting.step]
  split
  · split
    · exact quoted_of_quote_eq_none rfl
    · exact h
  · split
    · rename_i hc
      intro q hq
      exact Option.some_inj.1 hq ▸ hc
    · split
      · exact quoted_of_quote_eq_none rfl
      · split
        · exact quoted_of_quote_eq_none rfl
        · exact h

theorem Quoted.after (h : Quoted n) (s : List Char) : Quoted (n.after s) := by
  induction s generalizing n with
  | nil => exact h
  | cons c s ih => exact ih (h.step c)

theorem Quoted.step_of_isBlank (hn : Quoted n) (h : isBlank c = true) : n.step c = n := by
  obtain ⟨d, q⟩ := n
  cases q with
  | none => exact Text.step_of_isBlank h d
  | some q =>
      have hne : c ≠ q := by
        rintro rfl
        have hq := hn c rfl
        rw [isQuote_of_not_mem_marks (not_mem_marks_of_isBlank h)] at hq
        cases hq
      exact if_neg hne

/-! ## Places -/

/-- Where the reader of a parameter list stands. -/
inductive Place where
  | inside (n : Nesting)
  /-- In a comment that goes on to the end of its line. -/
  | comment (n : Nesting)
  /-- Behind the parenthesis that closes the list. -/
  | behind
  deriving DecidableEq, Repr

namespace Place

def insideStep (n : Nesting) (c : Char) : Place :=
  if n.quote.isNone ∧ c = '#' then .comment n
  else if n = .top ∧ c = ')' then .behind
  else .inside (n.step c)

def step : Place → Char → Place
  | .inside n, c => insideStep n c
  | .comment n, c => if c = '\n' then .inside n else .comment n
  | .behind, _ => .behind

/-- What of a character goes into the text of the list.  A line end is a space there. -/
def copy : Place → Char → List Char
  | .inside n, c =>
    if n.quote.isNone ∧ c = '#' ∨ n = .top ∧ c = ')' then []
    else [if c = '\n' then ' ' else c]
  | .comment _, c => if c = '\n' then [' '] else []
  | .behind, _ => []

/-- Where the reader stands behind a text. -/
def after (p : Place) (s : List Char) : Place := s.foldl step p

/-- What the reader takes over from a text. -/
def copied : Place → List Char → List Char
  | _, [] => []
  | p, c :: s => p.copy c ++ (p.step c).copied s

variable {p : Place}

@[simp] theorem after_nil (p : Place) : p.after [] = p := rfl

@[simp] theorem after_cons (p : Place) (c : Char) (s : List Char) :
    p.after (c :: s) = (p.step c).after s := rfl

@[simp] theorem after_append (p : Place) (s t : List Char) :
    p.after (s ++ t) = (p.after s).after t :=
  List.foldl_append

@[simp] theorem copied_nil (p : Place) : p.copied [] = [] := rfl

@[simp] theorem copied_cons (p : Place) (c : Char) (s : List Char) :
    p.copied (c :: s) = p.copy c ++ (p.step c).copied s := rfl

@[simp] theorem copied_append (p : Place) (s t : List Char) :
    p.copied (s ++ t) = p.copied s ++ (p.after s).copied t := by
  induction s generalizing p with
  | nil => rfl
  | cons c s ih => simp [ih]

@[simp] theorem after_behind (s : List Char) : behind.after s = behind := by
  induction s with
  | nil => rfl
  | cons c s ih => exact ih

@[simp] theorem copied_behind (s : List Char) : behind.copied s = [] := by
  induction s with
  | nil => rfl
  | cons c s ih => exact ih

/-! ## Steps -/

theorem step_inside (hc : c ≠ '#') (hp : c ≠ ')') :
    (inside n).step c = inside (n.step c) := by
  simp [step, insideStep, hc, hp]

theorem copy_inside (hc : c ≠ '#') (hp : c ≠ ')') (hn : c ≠ '\n') :
    (inside n).copy c = [c] := by
  simp [copy, hc, hp, hn]

/-- Only a parenthesis takes the reader out of the list. -/
theorem step_eq_behind (hc : c ≠ ')') : p.step c = behind ↔ p = behind := by
  cases p with
  | inside n =>
      rw [step, insideStep]
      split
      · simp
      · simp [hc]
  | comment n =>
      rw [step]
      split
      · simp
      · simp
  | behind => exact Iff.rfl

/-- What is open around the reader, in a comment as well. -/
def nesting? : Place → Option Nesting
  | .inside n => some n
  | .comment n => some n
  | .behind => none

theorem quoted_step (h : ∀ n ∈ p.nesting?, Quoted n) (c : Char) :
    ∀ n ∈ (p.step c).nesting?, Quoted n := by
  cases p with
  | inside n =>
      intro m hm
      rw [step, insideStep] at hm
      split at hm
      · exact h m hm
      · split at hm
        · cases hm
        · cases hm
          exact (h n rfl).step c
  | comment n =>
      intro m hm
      rw [step] at hm
      split at hm
      · exact h m hm
      · exact h m hm
  | behind => exact h

theorem quoted_after (h : ∀ n ∈ p.nesting?, Quoted n) (s : List Char) :
    ∀ n ∈ (p.after s).nesting?, Quoted n := by
  induction s generalizing p with
  | nil => exact h
  | cons c s ih => exact ih (quoted_step h c)

/-! ## Blanks and comments -/

/-- The reader stands in the list, in a comment or not, and no quote is open. -/
structure Idle (p : Place) (n : Nesting) : Prop where
  nesting_eq : p.nesting? = some n
  quote_eq : n.quote = none

theorem Idle.cases (h : Idle p n) : p = inside n ∨ p = comment n := by
  cases p with
  | inside m => exact .inl (congrArg inside (Option.some_inj.1 h.nesting_eq))
  | comment m => exact .inr (congrArg comment (Option.some_inj.1 h.nesting_eq))
  | behind => cases h.nesting_eq

theorem Idle.blank (h : Idle p n) (hc : isBlank c = true) :
    Idle (p.step c) n ∧ allBlank (p.copy c) = true := by
  have hm := not_mem_marks_of_isBlank hc
  have hhash : c ≠ '#' := ne_of_not_mem_marks hm (by decide)
  have hparen : c ≠ ')' := ne_of_not_mem_marks hm (by decide)
  rcases h.cases with rfl | rfl
  · rw [step_inside hhash hparen, (quoted_of_quote_eq_none h.quote_eq).step_of_isBlank hc]
    refine ⟨h, ?_⟩
    by_cases hn : c = '\n'
    · simp [copy, hn]
    · simp [copy_inside hhash hparen hn, hc]
  · by_cases hn : c = '\n'
    · simp only [step, copy, if_pos hn]
      exact ⟨⟨rfl, h.quote_eq⟩, rfl⟩
    · simp only [step, copy, if_neg hn]
      exact ⟨h, rfl⟩

theorem Idle.blanks (h : Idle p n) (hw : allBlank w = true) :
    Idle (p.after w) n ∧ allBlank (p.copied w) = true := by
  induction w generalizing p with
  | nil => exact ⟨h, rfl⟩
  | cons c w ih =>
      rw [allBlank_cons, Bool.and_eq_true] at hw
      obtain ⟨hidle, hcopy⟩ := h.blank hw.1
      obtain ⟨hafter, hcopied⟩ := ih hidle hw.2
      refine ⟨hafter, ?_⟩
      rw [copied_cons, allBlank_append, hcopy, hcopied]
      rfl

theorem after_comment (n : Nesting) (ht : '\n' ∉ t) :
    (comment n).after t = comment n ∧ (comment n).copied t = [] := by
  induction t with
  | nil => exact ⟨rfl, rfl⟩
  | cons c t ih =>
      obtain ⟨hc, ht⟩ := not_or.1 (mt List.mem_cons.2 ht)
      have hstep : (comment n).step c = comment n := if_neg (Ne.symm hc)
      have hcopy : (comment n).copy c = [] := if_neg (Ne.symm hc)
      obtain ⟨hafter, hcopied⟩ := ih ht
      constructor
      · rw [after_cons, hstep, hafter]
      · rw [copied_cons, hstep, hcopied, hcopy]
        rfl

/-- Of blanks and a comment only blanks are left. -/
theorem Idle.remark (h : Idle p n) (hw : allBlank w = true) (ht : '\n' ∉ t) :
    p.after (w ++ '#' :: t) = comment n ∧ allBlank (p.copied (w ++ '#' :: t)) = true := by
  obtain ⟨hafter, hcopied⟩ := h.blanks hw
  have hhash : (p.after w).step '#' = comment n ∧ (p.after w).copy '#' = [] := by
    rcases hafter.cases with he | he
    · rw [he]
      simp [step, insideStep, copy, h.quote_eq]
    · rw [he]
      exact ⟨rfl, rfl⟩
  obtain ⟨hline, hnone⟩ := after_comment n ht
  constructor
  · rw [after_append, after_cons, hhash.1, hline]
  · rw [copied_append, copied_cons, hhash.1, hhash.2, hnone, allBlank_append, hcopied]
    rfl

theorem Idle.feed (h : Idle p n) : p.step '\n' = inside n ∧ p.copy '\n' = [' '] := by
  rcases h.cases with rfl | rfl
  · refine ⟨?_, by simp [copy]⟩
    rw [step_inside (by decide) (by decide),
      (quoted_of_quote_eq_none h.quote_eq).step_of_isBlank (by decide)]
  · exact ⟨rfl, rfl⟩

/-! ## The list as a whole -/

/-- The text of the list, if the reader comes out behind it. -/
def read? (p : Place) (s : List Char) : Option (List Char) :=
  if p.after s = behind then some (p.copied s) else none

theorem read?_cons (p : Place) (c : Char) (s : List Char) :
    p.read? (c :: s) = ((p.step c).read? s).map (p.copy c ++ ·) := by
  rw [read?, read?, after_cons, copied_cons]
  split <;> rfl

theorem read?_append (p : Place) (s t : List Char) :
    p.read? (s ++ t) = ((p.after s).read? t).map (p.copied s ++ ·) := by
  rw [read?, read?, after_append, copied_append]
  split <;> rfl

theorem read?_behind (s : List Char) : behind.read? s = some [] := by
  rw [read?, after_behind, copied_behind, if_pos rfl]

theorem read?_nil (hp : p ≠ behind) : p.read? [] = none := if_neg hp

end Place

theorem parameterText?_eq_read? (n : Nesting) (s : List Char) :
    parameterText? n false s = (Place.inside n).read? s ∧
      parameterText? n true s = (Place.comment n).read? s := by
  induction s generalizing n with
  | nil => exact ⟨rfl, rfl⟩
  | cons c s ih =>
      rw [Place.read?_cons, Place.read?_cons]
      constructor
      · rw [parameterText?, Place.step, Place.insideStep, Place.copy]
        by_cases hhash : n.quote.isNone ∧ c = '#'
        · simp [hhash, ih]
        · by_cases hclose : n = .top ∧ c = ')'
          · simp [hclose, Place.read?_behind]
          · simp only [hhash, hclose, if_false, Bool.false_eq_true, (ih _).1, or_self,
              List.cons_append, List.nil_append]
      · rw [parameterText?, Place.step, Place.copy]
        by_cases hc : c = '\n'
        · simp [hc, ih]
        · simp [hc, ih]

/-! ## Names -/

/-- The names in the text of a parameter list. -/
def parameterNames (text : List Char) : List String :=
  (splitTopLevel text).filterMap parameterName?

theorem parameterName?_trim (s : List Char) :
    parameterName? (trim s) = parameterName? s := by
  rw [parameterName?, trim_trim, parameterName?]

theorem parameterNames_eq (s : List Char) :
    parameterNames s = (splitNested .top s).filterMap parameterName? := by
  rw [parameterNames, splitTopLevel, List.filterMap_map]
  exact List.filterMap_congr fun p _ => parameterName?_trim p

/-! ## Wider blanks -/

theorem splitNested_blanks (hq : Quoted n) (hw : allBlank w = true) {p : List Char}
    {ps : List (List Char)} (h : splitNested n s = p :: ps) :
    splitNested n (w ++ s) = (w ++ p) :: ps := by
  induction w with
  | nil => exact h
  | cons c w ih =>
      rw [allBlank_cons, Bool.and_eq_true] at hw
      have hc : n.separates c = false := by
        have hcomma : c ≠ ',' := by
          rintro rfl
          cases hw.1
        simp [Nesting.separates, hcomma]
      refine splitNested_cons hc ?_
      rw [hq.step_of_isBlank hw.1]
      exact ih hw.2

theorem trimStart_append_of_not (h : ¬ allBlank s = true) (t : List Char) :
    trimStart (s ++ t) = trimStart s ++ t := by
  rw [trimStart, List.dropWhile_append, if_neg]
  · rfl
  · rw [List.isEmpty_iff]
    exact mt trimStart_eq_nil.1 h

/-- Two texts that differ in the width of one blank. -/
def Widened (s t : List Char) : Prop :=
  ∃ a v w b, allBlank v = true ∧ allBlank w = true ∧ v ≠ [] ∧ w ≠ [] ∧ s = a ++ (v ++ b) ∧
    t = a ++ (w ++ b)

namespace Widened

theorem symm (h : Widened s t) : Widened t s := by
  obtain ⟨a, v, w, b, hv, hw, hvne, hwne, hs, ht⟩ := h
  exact ⟨a, w, v, b, hw, hv, hwne, hvne, ht, hs⟩

theorem not_noBlank (h : Widened s t) : ¬ NoBlank s := by
  obtain ⟨a, v, w, b, hv, -, hvne, -, rfl, -⟩ := h
  intro hs
  obtain ⟨c, v, rfl⟩ := List.exists_cons_of_ne_nil hvne
  have hc := hs c (by simp)
  rw [allBlank_iff.1 hv c List.mem_cons_self] at hc
  cases hc

/-- The blank goes with the trimming, or it stands between two texts. -/
theorem trim_eq_or (h : Widened s t) :
    trim s = trim t ∨ Widened (trim s) (trim t) ∧ (trim s).head? = (trim t).head? := by
  obtain ⟨a, v, w, b, hv, hw, hvne, hwne, rfl, rfl⟩ := h
  by_cases ha : allBlank a = true
  · left
    have hfront {u : List Char} (hu : allBlank u = true) :
        trim (a ++ (u ++ b)) = trim b := by
      rw [← List.append_assoc, trim_append_of_allBlank_left (by simp [ha, hu])]
    rw [hfront hv, hfront hw]
  by_cases hb : allBlank b = true
  · left
    have hend {u : List Char} (hu : allBlank u = true) : trim (a ++ (u ++ b)) = trim a :=
      trim_append_of_allBlank (by simp [hu, hb])
    rw [hend hv, hend hw]
  · right
    have hmiddle (u : List Char) : trim (a ++ (u ++ b)) =
        trimStart a ++ (u ++ trimEnd b) := by
      have hu : ¬ allBlank (u ++ b) = true := by simp [hb]
      rw [trim, trimStart_append_of_not ha, trimEnd_append_of_not hu,
        trimEnd_append_of_not hb]
    rw [hmiddle, hmiddle]
    refine ⟨⟨_, v, w, _, hv, hw, hvne, hwne, rfl, rfl⟩, ?_⟩
    obtain ⟨c, r, hr⟩ := List.exists_cons_of_ne_nil (mt trimStart_eq_nil.1 ha)
    rw [hr]
    rfl

/-- The blank is cut off, or it is in what is left. -/
theorem takeWhile_eq_or {m : Char → Bool} (hm : ∀ c, isBlank c = true → m c = true)
    (h : Widened s t) :
    s.takeWhile m = t.takeWhile m ∨ Widened (s.takeWhile m) (t.takeWhile m) := by
  obtain ⟨a, v, w, b, hv, hw, hvne, hwne, rfl, rfl⟩ := h
  have hblank {u : List Char} (hu : allBlank u = true) : (u ++ b).takeWhile m =
      u ++ b.takeWhile m :=
    List.takeWhile_append_of_pos fun c hc => hm c (allBlank_iff.1 hu c hc)
  have hcut (u : List Char) : (a ++ u).takeWhile m =
      if (a.takeWhile m).length = a.length then a ++ u.takeWhile m else a.takeWhile m :=
        List.takeWhile_append
  rw [hcut, hcut, hblank hv, hblank hw]
  split
  · exact .inr ⟨a, v, w, _, hv, hw, hvne, hwne, rfl, rfl⟩
  · exact .inl rfl

/-- A name is the same, unless it has a blank in it. -/
theorem parameterName?_eq (h : Widened s t)
    (hs : ∀ name ∈ parameterName? s, NoBlank name.toList) :
    parameterName? t = parameterName? s := by
  rcases h.trim_eq_or with heq | ⟨hw, hhead⟩
  · rw [parameterName?, ← heq, parameterName?]
  · have hone : trim s ≠ ['/'] := fun he => (he ▸ hw).not_noBlank (by decide)
    have htwo : trim t ≠ ['/'] := fun he => (he ▸ hw).symm.not_noBlank (by decide)
    simp only [parameterName?, hone, htwo, or_false, hhead] at hs ⊢
    by_cases hstar : (trim t).head? = some '*'
    · rw [if_pos hstar, if_pos hstar]
    · rw [if_neg hstar] at hs ⊢
      rw [if_neg hstar]
      have hm (c : Char) (hc : isBlank c = true) : decide (c ≠ ':' ∧ c ≠ '=') = true := by
        refine decide_eq_true ⟨?_, ?_⟩ <;> rintro rfl <;> cases hc
      rcases hw.takeWhile_eq_or hm with heq | hw
      · rw [heq]
      · rcases hw.trim_eq_or with heq | ⟨hw, -⟩
        · rw [heq]
        · -- What is left of the blank would be in the name.
          refine absurd ?_ hw.not_noBlank
          intro c hc
          refine hs _ ?_ c (by rwa [String.toList_ofList])
          rw [if_neg (by simpa using List.ne_nil_of_mem hc)]
          rfl

end Widened

/-- The names in a text are the same when one of its blanks is wider, unless they
have blanks in them. -/
theorem parameterNames_widen {v : List Char} (hv : allBlank v = true)
    (hw : allBlank w = true) (hvne : v ≠ []) (hwne : w ≠ [])
    (h : ∀ name ∈ parameterNames (s ++ (v ++ t)), NoBlank name.toList) :
    parameterNames (s ++ (w ++ t)) = parameterNames (s ++ (v ++ t)) := by
  have hq : Quoted (Nesting.top.after s) := (quoted_of_quote_eq_none rfl).after s
  obtain ⟨ps, p, hparts⟩ := exists_splitNested_append .top s
  obtain ⟨q, qs, ht⟩ :=
    List.exists_cons_of_ne_nil (splitNested_ne_nil (Nesting.top.after s) t)
  rw [parameterNames_eq, hparts _ _ _ (splitNested_blanks hq hv ht)] at h
  rw [parameterNames_eq, parameterNames_eq, hparts _ _ _ (splitNested_blanks hq hv ht),
    hparts _ _ _ (splitNested_blanks hq hw ht)]
  have hwide : Widened (p ++ (v ++ q)) (p ++ (w ++ q)) :=
    ⟨p, v, w, q, hv, hw, hvne, hwne, rfl, rfl⟩
  have hname : parameterName? (p ++ (w ++ q)) = parameterName? (p ++ (v ++ q)) := by
    refine hwide.parameterName?_eq fun name hname => h name ?_
    rw [List.filterMap_append, List.filterMap_cons]
    rw [Option.mem_def.1 hname]
    simp
  rw [List.filterMap_append, List.filterMap_append, List.filterMap_cons,
    List.filterMap_cons, hname]

/-- No name has a blank in it. -/
def Unspaced (names : List String) : Prop := ∀ name ∈ names, NoBlank name.toList

instance (names : List String) : Decidable (Unspaced names) :=
  inferInstanceAs (Decidable (∀ name ∈ names, NoBlank name.toList))

/-- Blanks and a comment at the end of a line change no name. -/
theorem parameterNames_remark {p : Place} (h : p.Idle n) (hw : allBlank w = true)
    (ht : '\n' ∉ t) {taken rest : List Char} (hrest : ∀ c ∈ rest.head?, c = '\n')
    (hnames : ∀ text ∈ (p.read? rest).map (taken ++ ·), Unspaced (parameterNames text)) :
    ((p.read? (w ++ '#' :: t ++ rest)).map (taken ++ ·)).map parameterNames =
      ((p.read? rest).map (taken ++ ·)).map parameterNames := by
  obtain ⟨hafter, hcopied⟩ := h.remark hw ht
  rw [Place.read?_append, hafter]
  cases rest with
  | nil =>
      have hp : p ≠ .behind := by
        rintro rfl
        cases h.nesting_eq
      rw [Place.read?_nil hp, Place.read?_nil Place.noConfusion]
      rfl
  | cons c rest =>
      obtain rfl := hrest c rfl
      obtain ⟨hstep, hcopy⟩ := h.feed
      have hline : (Place.comment n).step '\n' = .inside n ∧
          (Place.comment n).copy '\n' = [' '] := ⟨rfl, rfl⟩
      rw [Place.read?_cons, hstep, hcopy] at hnames
      rw [Place.read?_cons, hline.1, hline.2, Place.read?_cons, hstep, hcopy]
      cases hread : (Place.inside n).read? rest with
      | none => rfl
      | some text =>
          have hn := hnames (taken ++ ([' '] ++ text)) (by simp [hread])
          have hblank : allBlank (p.copied (w ++ '#' :: t) ++ [' ']) = true := by
            rw [allBlank_append, hcopied]
            rfl
          have hwide := parameterNames_widen rfl hblank (List.cons_ne_nil ' ' [])
            (List.concat_ne_nil _ _) hn
          rw [List.append_assoc] at hwide
          exact congrArg some hwide

end NotebookService.Signature
