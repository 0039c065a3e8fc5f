/-
# `NotebookService.Proofs.Signature.Written` — a definition as it is written

A parameter list can be spread over lines.  A line may end behind the opening
parenthesis and behind any comma, those between the brackets of an annotation included,
with a comment in front of the line end or without.  `Definition` has all of this layout
in it, and `Definition.text` writes it down.

The scan looks at each of these lines by itself.  What begins with a parameter, a
marker, a comment or a closing parenthesis is no definition, since no parameter is
called `def` or `async`.  That leaves the lines that begin inside of an annotation or a
default, `Definition.innerLines`: they can look like a definition, and one further left
than the function would be taken for it.
-/
import NotebookService.Proofs.Signature.Edited
import NotebookService.Proofs.Text.Indent

namespace NotebookService.Signature

open NotebookService.Text

variable {s t u w : List Char} {c : Char} {k d : Nat}

/-! ## The written form -/

/-- The line that a text begins with. -/
def firstLine (s : List Char) : List Char := s.takeWhile (· ≠ '\n')

/-- The end of a line in a parameter list, with a comment in front of it or without. -/
structure LineEnd where
  gap : List Char
  remark : Option (List Char)
  deriving DecidableEq, Repr

namespace LineEnd

def line (e : LineEnd) : List Char :=
  e.gap ++ match e.remark with
    | none => []
    | some r => '#' :: r

def text (e : LineEnd) : List Char := e.line ++ ['\n']

structure Legal (e : LineEnd) : Prop where
  blank : allBlank e.gap = true
  gap_feedless : '\n' ∉ e.gap
  remark_feedless : ∀ r ∈ e.remark, '\n' ∉ r

instance (e : LineEnd) : Decidable e.Legal :=
  decidable_of_iff (allBlank e.gap = true ∧ '\n' ∉ e.gap ∧ ∀ r ∈ e.remark, '\n' ∉ r)
    ⟨fun ⟨hb, hg, hr⟩ => ⟨hb, hg, hr⟩,
      fun h => ⟨h.blank, h.gap_feedless, h.remark_feedless⟩⟩

end LineEnd

/-- A part of an annotation or a default. -/
inductive Piece where
  | char (c : Char)
  | quoted (mark : Char) (inner : List Char)
  /-- A comma with the lines that end behind it. -/
  | comma (ends : List LineEnd)
  deriving DecidableEq, Repr

namespace Piece

def text : Piece → List Char
  | char c => [c]
  | quoted mark inner => mark :: (inner ++ [mark])
  | comma ends => ',' :: ends.flatMap LineEnd.text

/-- A quoted text does not have its own mark in it, and nothing outside of
quotes is a comment. -/
def Legal : Piece → Prop
  | char c => Nesting.isQuote c = false ∧ c ≠ '#' ∧ c ≠ ',' ∧ c ≠ '\n'
  | quoted mark inner => Nesting.isQuote mark = true ∧ mark ∉ inner ∧ '\n' ∉ inner
  | comma ends => ∀ e ∈ ends, e.Legal

instance : (p : Piece) → Decidable p.Legal
  | char c =>
    inferInstanceAs (Decidable (Nesting.isQuote c = false ∧ c ≠ '#' ∧ c ≠ ',' ∧ c ≠ '\n'))
  | quoted mark inner =>
    inferInstanceAs (Decidable (Nesting.isQuote mark = true ∧ mark ∉ inner ∧
        '\n' ∉ inner))
  | comma ends => inferInstanceAs (Decidable (∀ e ∈ ends, e.Legal))

/-- Text without quotes and commas. -/
def spell (s : String) : List Piece := s.toList.map char

/-- The text of several pieces. -/
def textAll (ps : List Piece) : List Char := ps.flatMap text

/-- The brackets are balanced when `d` are open in front, and commas outside of quotes
stand between brackets. -/
def balanced (d : Nat) : List Piece → Bool
  | [] => d = 0
  | char c :: ps =>
    if Nesting.isOpening c then balanced (d + 1) ps
    else if Nesting.isClosing c then d ≠ 0 && balanced (d - 1) ps
    else balanced d ps
  | quoted _ _ :: ps => balanced d ps
  | comma _ :: ps => d ≠ 0 && balanced d ps

/-- What begins the lines inside: the text behind each line end, as far as it
goes on the same line. -/
def innerLines : List Piece → List (List Char)
  | [] => []
  | comma (_ :: _) :: ps => firstLine (textAll ps) :: innerLines ps
  | _ :: ps => innerLines ps

structure AllLegal (ps : List Piece) : Prop where
  legal : ∀ p ∈ ps, p.Legal
  balanced : balanced 0 ps = true

instance (ps : List Piece) : Decidable (AllLegal ps) :=
  decidable_of_iff ((∀ p ∈ ps, p.Legal) ∧ Piece.balanced 0 ps = true)
    ⟨fun ⟨hl, hb⟩ => ⟨hl, hb⟩, fun h => ⟨h.legal, h.balanced⟩⟩

end Piece

/-- A parameter as its author writes it. -/
inductive Parameter where
  /-- A name, with blanks, an annotation and a default behind it. -/
  | named (name gap : List Char) (hint default : Option (List Piece))
  /-- The marker behind which parameters are not only positional. -/
  | slash (gap : List Char)
  /-- The marker `*`, `*args` and `**kwargs`, by what stands behind the first star. -/
  | starred (rest : List Piece)
  deriving DecidableEq, Repr

/-- A word, and none of those that a definition begins with. -/
structure IsName (s : List Char) : Prop where
  ne_nil : s ≠ []
  word : s.all isWordChar = true
  ne_def : s ≠ "def".toList
  ne_async : s ≠ "async".toList

instance (s : List Char) : Decidable (IsName s) :=
  decidable_of_iff (s ≠ [] ∧ s.all isWordChar = true ∧ s ≠ "def".toList ∧
    s ≠ "async".toList)
    ⟨fun ⟨hn, hw, hd, ha⟩ => ⟨hn, hw, hd, ha⟩,
      fun h => ⟨h.ne_nil, h.word, h.ne_def, h.ne_async⟩⟩

namespace Parameter

/-- The pieces behind a sign, if there are any. -/
def behind (sign : Char) : Option (List Piece) → List Char
  | none => []
  | some ps => sign :: Piece.textAll ps

def text : Parameter → List Char
  | named name gap hint default =>
    name ++ (gap ++ (behind ':' hint ++ behind '=' default))
  | slash gap => '/' :: gap
  | starred rest => '*' :: Piece.textAll rest

/-- The name that a caller can give an argument to. -/
def name? : Parameter → Option String
  | named name _ _ _ => some (String.ofList name)
  | slash _ => none
  | starred _ => none

def Legal : Parameter → Prop
  | named name gap hint default =>
    IsName name ∧ (allBlank gap = true ∧ '\n' ∉ gap) ∧ (∀ ps ∈ hint, Piece.AllLegal ps) ∧
      ∀ ps ∈ default, Piece.AllLegal ps
  | slash gap => allBlank gap = true ∧ '\n' ∉ gap
  | starred rest => Piece.AllLegal rest

instance : (p : Parameter) → Decidable p.Legal
  | named name gap hint default =>
    inferInstanceAs (Decidable (IsName name ∧ (allBlank gap = true ∧ '\n' ∉ gap) ∧
      (∀ ps ∈ hint, Piece.AllLegal ps) ∧ ∀ ps ∈ default, Piece.AllLegal ps))
  | slash gap => inferInstanceAs (Decidable (allBlank gap = true ∧ '\n' ∉ gap))
  | starred rest => inferInstanceAs (Decidable (Piece.AllLegal rest))

/-- The lines that begin inside of its annotation, its default or what
stands behind its star. -/
def innerLines : Parameter → List (List Char)
  | named _ _ hint default => (hint.toList ++ default.toList).flatMap Piece.innerLines
  | slash _ => []
  | starred rest => Piece.innerLines rest

end Parameter

/-- A place in a parameter list: the lines that end in front of it, the blanks behind
those and the parameter.  There is none in an empty list and behind a last comma. -/
structure Slot where
  ends : List LineEnd
  lead : List Char
  parameter : Option Parameter
  deriving DecidableEq, Repr

namespace Slot

/-- The text of the parameter itself. -/
def core (s : Slot) : List Char := (s.parameter.map Parameter.text).getD []

def text (s : Slot) : List Char := s.ends.flatMap LineEnd.text ++ (s.lead ++ s.core)

structure Legal (s : Slot) : Prop where
  ends : ∀ e ∈ s.ends, e.Legal
  blank : allBlank s.lead = true
  feedless : '\n' ∉ s.lead
  parameter : ∀ p ∈ s.parameter, p.Legal

instance (s : Slot) : Decidable s.Legal :=
  decidable_of_iff ((∀ e ∈ s.ends, e.Legal) ∧ allBlank s.lead = true ∧ '\n' ∉ s.lead ∧
    ∀ p ∈ s.parameter, p.Legal)
    ⟨fun ⟨he, hb, hf, hp⟩ => ⟨he, hb, hf, hp⟩,
      fun h => ⟨h.ends, h.blank, h.feedless, h.parameter⟩⟩

end Slot

/-- A definition as its author writes it. -/
structure Definition where
  margin : List Char
  isAsync : Bool
  name : List Char
  first : Slot
  /-- What stands behind the commas between parameters. -/
  more : List Slot
  /-- The rest of the line behind the list. -/
  tail : List Char
  body : List (List Char)
  deriving DecidableEq, Repr

namespace Definition

variable (d : Definition)

/-- What is written in front of the parameter list. -/
def front : List Char :=
  d.margin ++ ((if d.isAsync then "async def ".toList else "def ".toList) ++
    (d.name ++ ['(']))

def list : List Char := d.first.text ++ d.more.flatMap fun s => ',' :: s.text

def behind : List Char := ')' :: (d.tail ++ d.body.flatMap ('\n' :: ·))

def text : List Char := d.front ++ (d.list ++ d.behind)

def names : List String :=
  (d.first :: d.more).filterMap fun s => s.parameter.bind Parameter.name?

/-- The lines that begin inside of annotations and defaults. -/
def innerLines : List (List Char) :=
  (d.first :: d.more).flatMap fun s => s.parameter.toList.flatMap Parameter.innerLines

end Definition

/-- The line does not begin a definition with fewer than `k` columns in front. -/
def Stays (k : Nat) (l : List Char) : Prop :=
  (definition? (trimStart l)).isSome = true → k ≤ indentation l

instance (k : Nat) (l : List Char) : Decidable (Stays k l) :=
  inferInstanceAs (Decidable ((definition? (trimStart l)).isSome = true →
      k ≤ indentation l))

namespace Definition

structure Legal (d : Definition) : Prop where
  margin_blank : allBlank d.margin = true
  margin_feedless : '\n' ∉ d.margin
  name_ne_nil : d.name ≠ []
  name_word : d.name.all isWordChar = true
  slots : ∀ s ∈ d.first :: d.more, s.Legal
  tail_feedless : '\n' ∉ d.tail
  body_feedless : ∀ l ∈ d.body, '\n' ∉ l
  /-- The body is indented, or at least defines nothing further left. -/
  body_stays : ∀ l ∈ d.body, Stays (width d.margin) l

instance (d : Definition) : Decidable d.Legal :=
  decidable_of_iff ((allBlank d.margin = true ∧ '\n' ∉ d.margin) ∧
    (d.name ≠ [] ∧ d.name.all isWordChar = true) ∧
      (∀ s ∈ d.first :: d.more, s.Legal) ∧ '\n' ∉ d.tail ∧ (∀ l ∈ d.body, '\n' ∉ l) ∧
        ∀ l ∈ d.body, Stays (width d.margin) l)
    ⟨fun ⟨⟨hm, hmf⟩, ⟨hn, hw⟩, hs, ht, hb, hbs⟩ => ⟨hm, hmf, hn, hw, hs, ht, hb, hbs⟩,
      fun h => ⟨⟨h.margin_blank, h.margin_feedless⟩, ⟨h.name_ne_nil, h.name_word⟩,
        h.slots, h.tail_feedless,
        h.body_feedless, h.body_stays⟩⟩

end Definition

/-! ## Lines that define nothing -/

theorem firstLine_append (h : '\n' ∉ s) (t : List Char) :
    firstLine (s ++ t) = s ++ firstLine t :=
  List.takeWhile_append_of_pos fun _ hc => decide_eq_true fun hn => h (hn ▸ hc)

theorem firstLine_append_feed (s t : List Char) :
    firstLine (s ++ '\n' :: t) = firstLine s :=
  takeWhile_append_cons_of_not (by simp) s t

theorem takeWhile_isWordChar_firstLine (s : List Char) :
    (firstLine s).takeWhile isWordChar = s.takeWhile isWordChar := by
  induction s with
  | nil => rfl
  | cons c s ih =>
      by_cases hc : c = '\n'
      · have hword : isWordChar '\n' = false := by decide
        simp [firstLine, hc, hword]
      · rw [firstLine] at ih ⊢
        rw [List.takeWhile_cons_of_pos (by simpa using hc), List.takeWhile_cons, ih,
          List.takeWhile_cons]

theorem feed_not_mem_of_all_isWordChar (h : s.all isWordChar = true) : '\n' ∉ s := by
  have hfeed : isWordChar '\n' = false := by decide
  intro hn
  rw [List.all_eq_true.1 h _ hn] at hfeed
  cases hfeed

theorem takeWhile_isWordChar_of_definition? {found : Bool × List Char}
    (h : definition? s = some found) :
    s.takeWhile isWordChar = "def".toList ∨ s.takeWhile isWordChar = "async".toList := by
  obtain ⟨isAsync, rest⟩ := found
  rcases definition?_eq_some_iff.1 h with ⟨-, rfl⟩ | ⟨-, gap, hgap, hblank, rfl⟩
  · exact .inl rfl
  · obtain ⟨c, gap, rfl⟩ := List.exists_cons_of_ne_nil hgap
    have hc : isWordChar c = false :=
      isWordChar_of_isBlank (allBlank_iff.1 hblank c List.mem_cons_self)
    refine .inr ?_
    rw [List.append_assoc, List.append_assoc, List.cons_append,
      takeWhile_append_cons_of_not hc]
    rfl

theorem stays_of_definition?_eq_none (h : definition? (trimStart w) = none) :
    Stays k w := by
  intro hsome
  rw [h] at hsome
  cases hsome

/-- The text begins with something that no definition begins with. -/
structure Inert (s : List Char) : Prop where
  exists_cons : ∃ c r, s = c :: r ∧ isBlank c = false
  ne_def : s.takeWhile isWordChar ≠ "def".toList
  ne_async : s.takeWhile isWordChar ≠ "async".toList

theorem inert_cons (hb : isBlank c = false) (hc : isWordChar c = false) (s : List Char) :
    Inert (c :: s) := by
  have hnil : (c :: s).takeWhile isWordChar = [] :=
    List.takeWhile_cons_of_neg (by simp [hc])
  refine ⟨⟨c, s, rfl, hb⟩, ?_, ?_⟩
  · rw [hnil]
    decide
  · rw [hnil]
    decide

/-- A line that begins with such a text, behind blanks, is no definition. -/
theorem Inert.stays (h : Inert s) (hw : allBlank w = true) (hfeed : '\n' ∉ w) :
    Stays k (firstLine (w ++ s)) := by
  obtain ⟨c, r, rfl, hc⟩ := h.exists_cons
  have hn : c ≠ '\n' := by
    rintro rfl
    cases hc
  have htrim : trimStart (firstLine (w ++ c :: r)) = firstLine (c :: r) := by
    have hcons : firstLine (c :: r) = c :: firstLine r :=
      List.takeWhile_cons_of_pos (by simpa using hn)
    rw [firstLine_append hfeed, trimStart_append_of_allBlank hw, hcons,
      trimStart_cons_of_not hc]
  refine stays_of_definition?_eq_none ?_
  rw [htrim]
  cases hd : definition? (firstLine (c :: r)) with
  | none => rfl
  | some found =>
      have hword := takeWhile_isWordChar_of_definition? hd
      rw [takeWhile_isWordChar_firstLine] at hword
      exact (hword.elim h.ne_def h.ne_async).elim

theorem LineEnd.Legal.feedless {e : LineEnd} (h : e.Legal) : '\n' ∉ e.line := by
  rw [LineEnd.line, List.mem_append, not_or]
  refine ⟨h.gap_feedless, ?_⟩
  cases hr : e.remark with
  | none => exact List.not_mem_nil
  | some r =>
      have hremark := h.remark_feedless r hr
      simpa using hremark

theorem LineEnd.Legal.stays {e : LineEnd} (h : e.Legal) : Stays k e.line := by
  refine stays_of_definition?_eq_none ?_
  rw [LineEnd.line, trimStart_append_of_allBlank h.blank]
  cases e.remark with
  | none => rfl
  | some r => rfl

/-- Every line that begins in `s`, where `t` follows, stays. -/
def LinesStay (k : Nat) : List Char → List Char → Prop
  | [], _ => True
  | c :: s, t => (c = '\n' → Stays k (firstLine (s ++ t))) ∧ LinesStay k s t

theorem linesStay_append :
    LinesStay k (s ++ u) t ↔ LinesStay k s (u ++ t) ∧ LinesStay k u t := by
  induction s with
  | nil => simp [LinesStay]
  | cons c s ih =>
      rw [List.cons_append, LinesStay, LinesStay, ih, List.append_assoc, and_assoc]

theorem linesStay_of_not_mem (h : '\n' ∉ s) (t : List Char) : LinesStay k s t := by
  induction s with
  | nil => trivial
  | cons c s ih =>
      obtain ⟨hc, hs⟩ := not_or.1 (mt List.mem_cons.2 h)
      exact ⟨fun hn => absurd hn.symm hc, ih hs⟩

theorem linesStay_feed (s t : List Char) :
    LinesStay k ('\n' :: s) t ↔ Stays k (firstLine (s ++ t)) ∧ LinesStay k s t := by
  simp [LinesStay]

theorem stays_of_mem_tail (h : LinesStay k s []) :
    ∀ l ∈ (splitAtFeeds s).tail, Stays k l := by
  induction s with
  | nil => exact fun l hl => nomatch hl
  | cons c s ih =>
      obtain ⟨hc, hs⟩ := h
      obtain ⟨ls, hsplit⟩ := exists_splitAtFeeds_eq s
      have htail := ih hs
      rw [hsplit] at htail
      rw [splitAtFeeds, hsplit]
      split
      · rename_i hn
        have hfirst := hc hn
        rw [List.append_nil] at hfirst
        exact List.forall_mem_cons.2 ⟨hfirst, htail⟩
      · exact htail

theorem linesStay_ends {ends : List LineEnd} (hends : ∀ e ∈ ends, e.Legal)
    (h : ends ≠ [] → Stays k (firstLine t)) :
    LinesStay k (ends.flatMap LineEnd.text) t := by
  induction ends with
  | nil => trivial
  | cons e ends ih =>
      obtain ⟨he, hends⟩ := List.forall_mem_cons.1 hends
      rw [List.flatMap_cons, LineEnd.text, List.append_assoc, linesStay_append,
        List.singleton_append, linesStay_feed]
      refine ⟨linesStay_of_not_mem he.feedless _, ?_, ih hends fun _ =>
        h (List.cons_ne_nil _ _)⟩
      cases ends with
      | nil => exact h (List.cons_ne_nil _ _)
      | cons e' ends =>
          have he' := List.forall_mem_cons.1 hends |>.1
          rw [List.flatMap_cons, LineEnd.text, List.append_assoc, List.append_assoc,
            firstLine_append he'.feedless]
          simpa [firstLine] using he'.stays

/-! ## Lines inside of a list -/

/-- Whether a line begins a definition is seen in front of any closing bracket. -/
theorem Stays.append (h : Stays k (firstLine s)) (hc : Nesting.isClosing c = true)
    (hmem : c ∈ s) (t : List Char) :
    Stays k (firstLine (s ++ t)) := by
  by_cases hn : '\n' ∈ s
  · obtain ⟨a, b, rfl⟩ := List.append_of_mem hn
    rw [List.append_assoc, List.cons_append, firstLine_append_feed]
    rwa [firstLine_append_feed] at h
  · have hplain : isWordChar c = false ∧ isBlank c = false := by
      simp only [Nesting.isClosing, Bool.or_eq_true, decide_eq_true_eq] at hc
      rcases hc with (rfl | rfl) | rfl <;> decide
    have hs : ¬ allBlank s = true := by
      intro hb
      rw [allBlank_iff.1 hb c hmem] at hplain
      cases hplain.2
    have hself : firstLine s = s := by
      have hnil := firstLine_append hn []
      rw [List.append_nil] at hnil
      exact hnil.trans (List.append_nil s)
    rw [hself] at h
    rw [firstLine_append hn]
    intro hsome
    rw [trimStart_append_of_not hs] at hsome
    obtain ⟨⟨isAsync, rest⟩, hfound⟩ := Option.isSome_iff_exists.1 hsome
    obtain ⟨w, hw, htext⟩ := defines_iff.1 (definition?_eq_some_iff.1 hfound)
    rw [indentation_append_of_not hs]
    refine h ?_
    rcases List.append_eq_append_iff.1 htext with ⟨r, rfl, -⟩ | ⟨r, hr, -⟩
    · have hcw : c ∈ trimStart s := by
        rw [← List.takeWhile_append_dropWhile (p := isBlank) (l := s)] at hmem
        refine (List.mem_append.1 hmem).resolve_left fun hfront => ?_
        rw [List.mem_takeWhile_imp hfront] at hplain
        cases hplain.2
      have hword := isWordChar_or_isBlank_of_defines hw (List.mem_append_left r hcw)
      rw [hplain.1, hplain.2] at hword
      cases hword
    · exact Option.isSome_iff_exists.2 ⟨_,
        definition?_eq_some_iff.2 (defines_iff.2 ⟨w, hw, hr⟩)⟩

namespace Piece

variable {p : Piece} {ps : List Piece}

@[simp] theorem textAll_cons (p : Piece) (ps : List Piece) :
    textAll (p :: ps) = p.text ++ textAll ps := rfl

theorem exists_isClosing (hb : balanced d ps = true) (hd : d ≠ 0) :
    ∃ c ∈ textAll ps, Nesting.isClosing c = true := by
  fun_induction balanced d ps with
  | case1 d => exact absurd (of_decide_eq_true hb) hd
  | case2 d c ps ho ih =>
      obtain ⟨m, hm, hc⟩ := ih hb (Nat.succ_ne_zero d)
      exact ⟨m, List.mem_append_right _ hm, hc⟩
  | case3 d c ps ho hc ih =>
      exact ⟨c, List.mem_append_left _ (List.mem_singleton_self c), hc⟩
  | case4 d c ps ho hc ih =>
      obtain ⟨m, hm, hc⟩ := ih hb hd
      exact ⟨m, List.mem_append_right _ hm, hc⟩
  | case5 d q inner ps ih =>
      obtain ⟨m, hm, hc⟩ := ih hb hd
      exact ⟨m, List.mem_append_right _ hm, hc⟩
  | case6 d ends ps ih =>
      rw [Bool.and_eq_true] at hb
      obtain ⟨m, hm, hc⟩ := ih hb.2 hd
      exact ⟨m, List.mem_append_right _ hm, hc⟩

theorem linesStay (hlegal : ∀ p ∈ ps, p.Legal) (hb : balanced d ps = true)
    (h : ∀ l ∈ innerLines ps, Stays k l) (t : List Char) :
    LinesStay k (textAll ps) t := by
  fun_induction balanced d ps with
  | case1 d => trivial
  | case2 d c ps ho ih =>
      obtain ⟨hp, hps⟩ := List.forall_mem_cons.1 hlegal
      exact ⟨fun hn => absurd hn hp.2.2.2, ih hps hb h⟩
  | case3 d c ps ho hc ih =>
      obtain ⟨hp, hps⟩ := List.forall_mem_cons.1 hlegal
      rw [Bool.and_eq_true] at hb
      exact ⟨fun hn => absurd hn hp.2.2.2, ih hps hb.2 h⟩
  | case4 d c ps ho hc ih =>
      obtain ⟨hp, hps⟩ := List.forall_mem_cons.1 hlegal
      exact ⟨fun hn => absurd hn hp.2.2.2, ih hps hb h⟩
  | case5 d q inner ps ih =>
      obtain ⟨⟨hquote, -, hfeed⟩, hps⟩ := List.forall_mem_cons.1 hlegal
      have hq : q ≠ '\n' := by
        rintro rfl
        cases hquote
      have hnot : '\n' ∉ (quoted q inner).text := by simp [text, hfeed, Ne.symm hq]
      exact linesStay_append.2 ⟨linesStay_of_not_mem hnot _, ih hps hb h⟩
  | case6 d ends ps ih =>
      obtain ⟨hp, hps⟩ := List.forall_mem_cons.1 hlegal
      rw [Bool.and_eq_true, decide_eq_true_eq] at hb
      obtain ⟨c, hmem, hc⟩ := exists_isClosing hb.2 hb.1
      cases ends with
      | nil => exact ⟨fun hn => absurd hn (by decide), ih hps hb.2 h⟩
      | cons e ends =>
          obtain ⟨hline, hlines⟩ := List.forall_mem_cons.1 h
          rw [textAll_cons, text, linesStay_append]
          refine ⟨⟨fun hn => absurd hn (by decide), linesStay_ends hp fun _ => ?_⟩,
            ih hps hb.2 hlines⟩
          exact hline.append hc hmem t

end Piece

/-- What follows a parameter: another one, or the end of the list. -/
def EndsParameter (t : List Char) : Prop := ∃ c r, t = c :: r ∧ (c = ',' ∨ c = ')')

theorem EndsParameter.inert (h : EndsParameter t) : Inert t := by
  obtain ⟨c, r, rfl, rfl | rfl⟩ := h
  · exact inert_cons (by decide) (by decide) r
  · exact inert_cons (by decide) (by decide) r

namespace Parameter

variable {p : Parameter} {gap : List Char}

/-- A name ends where something else follows. -/
theorem exists_cons_of_gap (hgap : allBlank gap = true)
    (hint default : Option (List Piece)) (ht : EndsParameter t) :
    ∃ c r, gap ++ (behind ':' hint ++ (behind '=' default ++ t)) = c :: r ∧
      isWordChar c = false := by
  cases gap with
  | cons c gap =>
      exact ⟨c, _, rfl, isWordChar_of_isBlank (allBlank_iff.1 hgap c List.mem_cons_self)⟩
  | nil =>
      cases hint with
      | some ps => exact ⟨':', _, rfl, by decide⟩
      | none =>
          cases default with
          | some ps => exact ⟨'=', _, rfl, by decide⟩
          | none =>
              obtain ⟨c, r, rfl, rfl | rfl⟩ := ht
              · exact ⟨',', r, rfl, by decide⟩
              · exact ⟨')', r, rfl, by decide⟩

theorem inert (hp : p.Legal) (ht : EndsParameter t) : Inert (p.text ++ t) := by
  cases p with
  | slash gap => exact inert_cons (by decide) (by decide) _
  | starred rest => exact inert_cons (by decide) (by decide) _
  | named name gap hint default =>
      obtain ⟨hname, ⟨hgap, -⟩, -, -⟩ := hp
      obtain ⟨c, r, hrest, hc⟩ := exists_cons_of_gap hgap hint default ht
      have hword : (name ++ c :: r).takeWhile isWordChar = name := by
        rw [takeWhile_append_cons_of_not hc, List.takeWhile_eq_self_iff]
        exact List.all_eq_true.1 hname.word
      obtain ⟨first, name, rfl⟩ := List.exists_cons_of_ne_nil hname.ne_nil
      have hfirst : isBlank first = false :=
        isBlank_of_isWordChar (List.all_eq_true.1 hname.word first List.mem_cons_self)
      rw [text, List.append_assoc, List.append_assoc, List.append_assoc, hrest]
      refine ⟨⟨first, _, rfl, hfirst⟩, ?_, ?_⟩
      · rw [hword]
        exact hname.ne_def
      · rw [hword]
        exact hname.ne_async

theorem linesStay_behind {sign : Char} (hsign : sign ≠ '\n') {ps : Option (List Piece)}
    (hps : ∀ e ∈ ps, Piece.AllLegal e)
    (h : ∀ l ∈ ps.toList.flatMap Piece.innerLines, Stays k l) (t : List Char) :
    LinesStay k (behind sign ps) t := by
  cases ps with
  | none => trivial
  | some ps =>
      have hlegal := hps ps rfl
      refine ⟨fun hn => absurd hn hsign,
        Piece.linesStay hlegal.legal hlegal.balanced ?_ t⟩
      simpa using h

theorem linesStay (hp : p.Legal) (h : ∀ l ∈ p.innerLines, Stays k l) (t : List Char) :
    LinesStay k p.text t := by
  cases p with
  | slash gap => exact ⟨fun hn => absurd hn (by decide), linesStay_of_not_mem hp.2 t⟩
  | starred rest =>
      exact ⟨fun hn => absurd hn (by decide), Piece.linesStay hp.legal hp.balanced h t⟩
  | named name gap hint default =>
      obtain ⟨hname, ⟨-, hgap⟩, hhint, hdefault⟩ := hp
      have hfeed : '\n' ∉ name := feed_not_mem_of_all_isWordChar hname.word
      rw [innerLines, List.flatMap_append, List.forall_mem_append] at h
      rw [text, linesStay_append, linesStay_append, linesStay_append]
      exact ⟨linesStay_of_not_mem hfeed _, linesStay_of_not_mem hgap _,
        linesStay_behind (by decide) hhint h.1 _,
        linesStay_behind (by decide) hdefault h.2 _⟩

end Parameter

theorem Slot.linesStay {s : Slot} (hs : s.Legal) (ht : EndsParameter t)
    (h : ∀ l ∈ s.parameter.toList.flatMap Parameter.innerLines, Stays k l) :
    LinesStay k s.text t := by
  have hcore : Inert (s.core ++ t) ∧ LinesStay k s.core t := by
    rw [core]
    cases hp : s.parameter with
    | none => exact ⟨ht.inert, trivial⟩
    | some p =>
        have hlegal := hs.parameter p hp
        rw [hp] at h
        exact ⟨Parameter.inert hlegal ht, Parameter.linesStay hlegal (by simpa using h) t⟩
  rw [text, linesStay_append, linesStay_append, List.append_assoc]
  exact ⟨linesStay_ends hs.ends fun _ => hcore.1.stays hs.blank hs.feedless,
    linesStay_of_not_mem hs.feedless _, hcore.2⟩

namespace Definition

variable {d : Definition}

theorem endsParameter_more (more : List Slot) (ht : EndsParameter t) :
    EndsParameter ((more.flatMap fun s => ',' :: s.text) ++ t) := by
  cases more with
  | nil => exact ht
  | cons s more => exact ⟨',', _, rfl, .inl rfl⟩

theorem linesStay_more {more : List Slot} (hmore : ∀ s ∈ more, s.Legal)
    (h : ∀ l ∈ more.flatMap fun s => s.parameter.toList.flatMap Parameter.innerLines,
      Stays k l)
    (ht : EndsParameter t) :
    LinesStay k (more.flatMap fun s => ',' :: s.text) t := by
  induction more with
  | nil => trivial
  | cons s more ih =>
      obtain ⟨hs, hmore⟩ := List.forall_mem_cons.1 hmore
      rw [List.flatMap_cons, List.forall_mem_append] at h
      rw [List.flatMap_cons, linesStay_append]
      refine ⟨⟨fun hn => absurd hn (by decide), ?_⟩, ih hmore h.2⟩
      exact Slot.linesStay hs (endsParameter_more more ht) h.1

theorem linesStay_body {body : List (List Char)} (hbody : ∀ l ∈ body, '\n' ∉ l)
    (h : ∀ l ∈ body, Stays k l) :
    LinesStay k (body.flatMap ('\n' :: ·)) [] := by
  induction body with
  | nil => trivial
  | cons l body ih =>
      obtain ⟨hl, hbody⟩ := List.forall_mem_cons.1 hbody
      obtain ⟨hstay, hstays⟩ := List.forall_mem_cons.1 h
      have hfirst : firstLine (body.flatMap ('\n' :: ·)) = [] := by
        cases body with
        | nil => rfl
        | cons m body => rfl
      rw [List.flatMap_cons, linesStay_append, linesStay_feed, List.append_nil,
        firstLine_append hl, hfirst, List.append_nil]
      exact ⟨⟨hstay, linesStay_of_not_mem hl _⟩, ih hbody hstays⟩

/-- No line but the first begins a definition further left. -/
theorem linesStay (hd : d.Legal) (h : ∀ l ∈ d.innerLines, Stays (width d.margin) l) :
    LinesStay (width d.margin) (d.list ++ d.behind) [] := by
  obtain ⟨hfirst, hmore⟩ := List.forall_mem_cons.1 hd.slots
  have hbehind : EndsParameter (d.behind ++ []) := ⟨')', _, rfl, .inr rfl⟩
  rw [innerLines, List.flatMap_cons, List.forall_mem_append] at h
  rw [list, linesStay_append, linesStay_append]
  refine ⟨⟨?_, ?_⟩, ?_⟩
  · exact Slot.linesStay hfirst (endsParameter_more d.more hbehind) h.1
  · exact linesStay_more hmore h.2 hbehind
  · rw [behind, LinesStay, linesStay_append]
    exact ⟨fun hn => absurd hn (by decide), linesStay_of_not_mem hd.tail_feedless _,
      linesStay_body hd.body_feedless hd.body_stays⟩

end Definition

/-! ## The scan -/

theorem outermost?_cons_of_le {e : Nat × Nat} {es : List (Nat × Nat)}
    (h : ∀ f ∈ es, e.2 ≤ f.2) :
    outermost? (e :: es) = some e := by
  rw [outermost?]
  cases ho : outermost? es with
  | none => rfl
  | some f => exact if_neg (Nat.not_lt.2 (h f (mem_of_outermost? ho)))

theorem le_of_mem_definitionLines {ls : List (List Char)} (h : ∀ l ∈ ls, Stays k l)
    {number : Nat} {opened : Option Char} :
    ∀ e ∈ definitionLines number opened ls, k ≤ e.2 := by
  induction ls generalizing number opened with
  | nil => exact fun e he => nomatch he
  | cons l ls ih =>
      obtain ⟨hl, hls⟩ := List.forall_mem_cons.1 h
      rw [definitionLines]
      split
      · rename_i hstarts
        rw [startsDefinition, Bool.and_eq_true] at hstarts
        exact List.forall_mem_cons.2 ⟨hl hstarts.2, ih hls⟩
      · exact ih hls

/-- A definition on the first line is chosen, if no other is further left. -/
theorem outermost?_first {l : List Char} {ls : List (List Char)}
    (hl : (definition? (trimStart l)).isSome = true)
    (h : ∀ m ∈ ls, Stays (indentation l) m) :
    outermost? (definitionLines 0 none (l :: ls)) = some (0, indentation l) := by
  have hstarts : startsDefinition none l = true := hl
  rw [definitionLines, if_pos hstarts]
  exact outermost?_cons_of_le (le_of_mem_definitionLines h)

end NotebookService.Signature
