/-
# `NotebookService.Proofs.Job.Wrapped` — a wrapped body moves with the strings in it

A body that defines no function is put into one, under a header and one level further
in.  Its lines are moved there one by one, and the layout does not look at what a line
is part of.  So the inner lines of a string over several lines are moved as well: they
lose the blanks at their ends and the indentation that all lines of the body share, and
they get four spaces.  The string that the job sees is then another one, unless the body
stood at that level already.

`splitAtFeeds_render_wrapper` gives the lines of the whole wrapper.  Only empty lines at
its end are missing, and the lines in a string are never among these, since the line
that closes the string comes after them.
-/
import NotebookService.Declaration
import NotebookService.Job
import NotebookService.Proofs.Code.Literal
import NotebookService.Proofs.Code.Verbatim
import NotebookService.Proofs.Decimal.Digits

namespace NotebookService

open NotebookService.Text NotebookService.Code

open NotebookService.Declaration (Triple)

/-! ## Strings over several lines -/

/-- Where a reader of the code stands.  A string is known by the mark
that it begins with. -/
inductive Reading where
  | code
  | comment
  /-- Behind one mark or two, which may turn out to be the first of three. -/
  | opening (t : Triple) (two : Bool)
  /-- In a string that ends with its line. -/
  | short (t : Triple) (escaped : Bool)
  /-- In a triple-quoted string, right behind as many of its marks. -/
  | long (t : Triple) (marks : Nat) (escaped : Bool)
  deriving DecidableEq, Repr

namespace Reading

def inCode (c : Char) : Reading :=
  if c = '#' then .comment
  else if c = Triple.double.mark then .opening .double false
  else if c = Triple.single.mark then .opening .single false
  else .code

def inShort (t : Triple) (c : Char) : Reading :=
  if c = '\\' then .short t true else if c = t.mark then .code else .short t false

def inLong (t : Triple) (marks : Nat) (c : Char) : Reading :=
  if c = '\\' then .long t 0 true
  else if c = t.mark then if marks = 2 then .code else .long t (marks + 1) false
  else .long t 0 false

/-- One more character.  What a backslash stands in front of is passed over. -/
def step : Reading → Char → Reading
  | .code, c => inCode c
  | .comment, _ => .comment
  | .opening t false, c => if c = t.mark then .opening t true else inShort t c
  | .opening t true, c => if c = t.mark then .long t 0 false else inCode c
  | .short t false, c => inShort t c
  | .short t true, _ => .short t false
  | .long t marks false, c => inLong t marks c
  | .long t _ true, _ => .long t 0 false

/-- The end of a line, which a short string goes on over only behind a backslash. -/
def atLineEnd : Reading → Reading
  | .long t _ _ => .long t 0 false
  | .short t true => .short t false
  | .code | .comment | .opening _ _ | .short _ false => .code

def afterLine (r : Reading) (l : List Char) : Reading := (l.foldl step r).atLineEnd

/-- Where the reader stands in front of a line. -/
def before (ls : List (List Char)) (i : Nat) : Reading :=
  (ls.take i).foldl afterLine .code

/-- All along the text the reader is in a triple-quoted string of this mark. -/
def staysLong (t : Triple) : Reading → List Char → Bool
  | .long u _ _, [] => u = t
  | .long u marks escaped, c :: l =>
    u = t && staysLong t (step (.long u marks escaped) c) l
  | .code, _ | .comment, _ | .opening _ _, _ | .short _ _, _ => false

/-- The line has no place at which an open string of this mark ends. -/
def isInner (t : Triple) (l : List Char) : Bool := staysLong t (.long t 0 false) l

end Reading

/-- Line `i` lies strictly between the line that opens a triple-quoted string and the
line that closes it. -/
def LiesInString (ls : List (List Char)) (i : Nat) : Prop :=
  ∃ t, Reading.before ls i = .long t 0 false ∧
    (∀ l ∈ ls[i]?, Reading.isInner t l = true) ∧
    ∃ l ∈ ls.drop (i + 1), Reading.isInner t l = false

theorem Reading.isInner_of_allBlank (t : Triple) {l : List Char} (h : allBlank l = true) :
    isInner t l = true := by
  induction l with
  | nil => cases t <;> rfl
  | cons c l ih =>
      rw [allBlank_cons, Bool.and_eq_true] at h
      have hslash : c ≠ '\\' := by
        rintro rfl
        cases h.1
      have hmark : c ≠ t.mark := by
        rintro rfl
        cases t <;> cases h.1
      have hstep : step (.long t 0 false) c = .long t 0 false := by
        rw [step, inLong, if_neg hslash, if_neg hmark]
      rw [isInner, staysLong, hstep, decide_eq_true rfl, Bool.true_and]
      exact ih h.2

/-- A line behind one that lies in a string is not blank: the one that
closes the string. -/
theorem LiesInString.exists_not_allBlank {ls : List (List Char)} {i : Nat}
    (h : LiesInString ls i) :
    ∃ l ∈ ls.drop (i + 1), allBlank l = false := by
  obtain ⟨t, -, -, l, hl, hc⟩ := h
  refine ⟨l, hl, Bool.eq_false_iff.2 fun hb => ?_⟩
  rw [Reading.isInner_of_allBlank t hb] at hc
  cases hc

namespace Job

/-! ## Decorators on one line -/

theorem feed_not_mem_append {s t : String} (hs : '\n' ∉ s.toList) (ht : '\n' ∉ t.toList) :
    '\n' ∉ (s ++ t).toList := by
  intro h
  rw [String.toList_append, List.mem_append] at h
  exact h.elim hs ht

theorem feed_not_mem_toString (n : Nat) : '\n' ∉ (toString n).toList := by
  intro h
  have hdigits : (toString n).toList = Decimal.digitsOf n := Nat.toList_repr
  rw [hdigits] at h
  exact absurd (Decimal.isDigit_of_mem_digitsOf h) (by decide)

theorem feed_not_mem_cronArguments (f : CronFields) :
    '\n' ∉ (cronArguments f).toList := by
  intro h
  rw [cronArguments, String.toList_join, List.mem_flatMap] at h
  obtain ⟨argument, ha, hc⟩ := h
  obtain ⟨⟨key, value⟩, hf, rfl⟩ := List.mem_map.1 ha
  have hkey : '\n' ∉ key.toList := by
    have hkeys : ∀ k ∈ f.arguments.map Prod.fst, '\n' ∉ k.toList := by
      show ∀ k ∈ ["second", "minute", "hour", "day", "month", "day_of_week"],
        '\n' ∉ k.toList
      decide
    exact hkeys key (List.mem_map_of_mem hf)
  exact feed_not_mem_append
    (feed_not_mem_append (feed_not_mem_append (by decide) hkey) (by decide))
    (feed_not_mem_literal value) hc

theorem feed_not_mem_schedulerCall {kind arguments : String} (hk : '\n' ∉ kind.toList)
    (ha : '\n' ∉ arguments.toList) (name : String) :
    '\n' ∉ (schedulerCall kind name arguments).toList := by
  have hid := feed_not_mem_literal (name ++ "_" ++ kind)
  have hname := feed_not_mem_literal (name ++ "_" ++ kind ++ "_job")
  refine feed_not_mem_append
    (feed_not_mem_append (feed_not_mem_append (feed_not_mem_append ?_ ?_) hname) ha)
    (by decide)
  · exact feed_not_mem_append
      (feed_not_mem_append (feed_not_mem_append (by decide) hk) (by decide)) hid
  · decide

/-- The trigger can be read. -/
def Trigger.IsValid : Trigger → Prop
  | .cron expression => (parseCron expression).value.isSome = true
  | .interval expression => (parseInterval expression).value.isSome = true

theorem Trigger.IsValid.exists_decorator {t : Trigger} (h : t.IsValid) (name : String) :
    ∃ d, (decorator t name).value = .ok d ∧ '\n' ∉ d.toList := by
  cases t with
  | cron expression =>
      obtain ⟨fields, hf⟩ := Option.isSome_iff_exists.1 h
      refine ⟨cronDecorator name fields, ?_, ?_⟩
      · rw [decorator, Noted.value_bind, hf]
        rfl
      · exact feed_not_mem_schedulerCall (by decide)
          (feed_not_mem_cronArguments fields) name
  | interval expression =>
      obtain ⟨seconds, hs⟩ := Option.isSome_iff_exists.1 h
      refine ⟨intervalDecorator name seconds, ?_, ?_⟩
      · rw [decorator, Noted.value_bind, hs]
        rfl
      · refine feed_not_mem_schedulerCall (by decide) ?_ name
        exact feed_not_mem_append (by decide) (feed_not_mem_toString seconds)

/-! ## The wrapper -/

theorem lines_wrapper (name d source : String) :
    (wrapper name d source).lines 0 =
      ("@" ++ d).toList :: ("async def scheduled_" ++ name ++ "():").toList ::
      verbatimLines 1 source.toList := by
  have hheader : "async " ++ "def " ++ ("scheduled_" ++ name) ++ "(" ++
    ", ".intercalate [] ++ "):" =
      "async def scheduled_" ++ name ++ "():" := by
    apply String.toList_injective
    simp [String.toList_append]
  show indented 0 ("@" ++ d).toList ::
    indented 0 ("async " ++ "def " ++ ("scheduled_" ++ name) ++ "(" ++
      ", ".intercalate [] ++ "):").toList ::
      (verbatimLines 1 source.toList ++ []) = _
  rw [hheader, indented_zero, indented_zero, List.append_nil]

/-- The lines of a wrapper: the decorator, the header, and the lines of the body, less
the empty ones at its end. -/
theorem splitAtFeeds_render_wrapper {name d source : String} (hd : '\n' ∉ d.toList)
    (hn : '\n' ∉ name.toList) :
    splitAtFeeds (render [wrapper name d source]).toList =
      ("@" ++ d).toList :: ("async def scheduled_" ++ name ++ "():").toList ::
        (verbatimLines 1 source.toList).rdropWhile List.isEmpty := by
  have hrender : (render [wrapper name d source]).toList =
      dropFeeds (textOf ((wrapper name d source).lines 0)) := by
    rw [render, String.toList_ofList]
    rfl
  have hheads :
      ∀ h ∈ [("@" ++ d).toList, ("async def scheduled_" ++ name ++ "():").toList],
      '\n' ∉ h := by
    refine List.forall_mem_cons.2 ⟨feed_not_mem_append (by decide) hd,
      List.forall_mem_singleton.2 ?_⟩
    exact feed_not_mem_append (feed_not_mem_append (by decide) hn) (by decide)
  have hfeed : ∀ m ∈ (wrapper name d source).lines 0, '\n' ∉ m := by
    rw [lines_wrapper]
    exact List.forall_mem_append.2 ⟨hheads,
      fun m hm => (isLaid_of_mem_verbatimLines hm).feed⟩
  have hdrop : ((wrapper name d source).lines 0).rdropWhile List.isEmpty =
      ("@" ++ d).toList :: ("async def scheduled_" ++ name ++ "():").toList ::
        (verbatimLines 1 source.toList).rdropWhile List.isEmpty := by
    have hheader : ¬ ("async def scheduled_" ++ name ++ "():").toList.isEmpty = true := by
      simp [String.toList_append]
    rw [lines_wrapper]
    exact rdropWhile_append_cons hheader [("@" ++ d).toList]
      (verbatimLines 1 source.toList)
  rw [hrender, splitAtFeeds_dropFeeds_textOf hfeed (hdrop ▸ List.cons_ne_nil _ _), hdrop]

/-- Where a line of a body lies in a string, the wrapper has it as the body's other
lines are moved: without the blanks at its end, and without the indentation that the
lines of the body share, behind four spaces.  So it is kept when it is empty, or when
the lines share just the four spaces that it begins with and it has no blank at its
end, and only then. -/
theorem wrapper_moves_string_lines {j : Job} (hnone : Signature.ofSource? j.source = none)
    (ht : j.trigger.IsValid) (generated : Nat) :
    ∃ decorator body,
      splitAtFeeds (render (j.generate generated).value.1).toList =
          decorator :: ("async def scheduled_" ++ madeUpName generated ++ "():").toList ::
          body ∧
        ∀ i l, (Text.lines j.source.toList)[i]? = some l →
        LiesInString (Text.lines j.source.toList) i →
          ∃ moved, body[i]? = some moved ∧
            moved = (if allBlank l then []
              else List.replicate 4 ' ' ++
              trimEnd (cut (sharedIndentation (Text.lines j.source.toList)) l)) ∧
            (moved = l ↔ l = [] ∨ sharedIndentation (Text.lines j.source.toList) = 4 ∧
              List.replicate 4 ' ' <+: l ∧ trimEnd l = l) := by
  obtain ⟨d, hd, hfeed⟩ := ht.exists_decorator (madeUpName generated)
  have hname : '\n' ∉ (madeUpName generated).toList :=
    feed_not_mem_append (by decide) (feed_not_mem_toString generated)
  have hgen : (j.generate generated).value = ([wrapper (madeUpName generated) d j.source],
      generated + 1) := by
    rw [generate, hnone]
    simp only [Noted.value_bind, hd]
    rfl
  refine ⟨("@" ++ d).toList,
    (verbatimLines 1 j.source.toList).rdropWhile List.isEmpty, ?_, ?_⟩
  · rw [hgen]
    exact splitAtFeeds_render_wrapper hfeed hname
  · intro i l hl hs
    have hmem : l ∈ Text.lines j.source.toList := List.mem_of_getElem? hl
    have hmoved : movedLine 1 (sharedIndentation (Text.lines j.source.toList)) l =
        if allBlank l then []
        else List.replicate 4 ' ' ++
        trimEnd (cut (sharedIndentation (Text.lines j.source.toList)) l) := by
      cases hb : allBlank l with
      | true => rw [movedLine, if_pos hb, if_pos rfl]
      | false =>
          rw [movedLine_of_not_allBlank hb (sharedIndentation_le hmem hb)]
          rfl
    refine ⟨_, ?_, hmoved, movedLine_eq_self_iff hmem⟩
    -- A line further down is not blank, so this one is not among those that are missing.
    obtain ⟨m, hm, hmb⟩ := hs.exists_not_allBlank
    rw [verbatimLines_eq, getElem?_rdropWhile, List.getElem?_map, hl, Option.map_some]
    refine ⟨movedLine 1 (sharedIndentation (Text.lines j.source.toList)) m, ?_, ?_⟩
    · rw [← List.map_drop]
      exact List.mem_map_of_mem hm
    · rw [← allBlank_movedLine (List.mem_of_mem_drop hm)] at hmb
      refine Bool.eq_false_iff.2 fun he => ?_
      rw [List.isEmpty_iff.1 he] at hmb
      cases hmb

/-- Of a string in a body at the level of the wrapper's own, a line that has blanks at
its end is changed, and the line before it is kept. -/
theorem wrapper_moves_string_lines_indented :
    let j : Job := ⟨.interval "5m", "    text = '''\n    hello\n    world  \n    '''"⟩
    Signature.ofSource? j.source = none ∧ j.trigger.IsValid ∧
      LiesInString (Text.lines j.source.toList) 1 ∧
      LiesInString (Text.lines j.source.toList) 2 ∧
      ∃ decorator body,
        splitAtFeeds (render (j.generate 0).value.1).toList =
            decorator :: "async def scheduled_generated_func_0():".toList :: body ∧
          body[1]? = some "    hello".toList ∧ body[2]? = some "    world".toList := by
  intro j
  have hlines : Text.lines j.source.toList =
      ["    text = '''".toList, "    hello".toList, "    world  ".toList,
        "    '''".toList] := by decide +kernel
  have hnone : Signature.ofSource? j.source = none := by decide +kernel
  have hvalid : j.trigger.IsValid := show (parseInterval "5m").value.isSome = true by
    decide +kernel
  have hfirst : LiesInString (Text.lines j.source.toList) 1 := by
    rw [hlines]
    exact ⟨.single, by
        decide +kernel, by
          decide +kernel, "    '''".toList, by decide +kernel, by decide +kernel⟩
  have hsecond : LiesInString (Text.lines j.source.toList) 2 := by
    rw [hlines]
    exact ⟨.single, by
        decide +kernel, by
          decide +kernel, "    '''".toList, by decide +kernel, by decide +kernel⟩
  obtain ⟨decorator, body, hsplit, hbody⟩ := wrapper_moves_string_lines hnone hvalid 0
  rw [hlines] at hbody
  obtain ⟨_, hhello, rfl, -⟩ := hbody 1 _ rfl (hlines ▸ hfirst)
  obtain ⟨_, hworld, rfl, -⟩ := hbody 2 _ rfl (hlines ▸ hsecond)
  have hheader : "async def scheduled_" ++ madeUpName 0 ++ "():" =
      "async def scheduled_generated_func_0():" := by
    decide +kernel
  rw [hheader] at hsplit
  refine ⟨hnone, hvalid, hfirst, hsecond, decorator, body, hsplit, hhello.trans ?_,
    hworld.trans ?_⟩
  · decide +kernel
  · decide +kernel

/-- No line of the wrapper is the line of the user's string. -/
theorem string_line_not_kept :
    let j : Job := ⟨.interval "5m", "x = '''\nhello\n'''"⟩
    Signature.ofSource? j.source = none ∧ j.trigger.IsValid ∧
      (Text.lines j.source.toList)[1]? = some "hello".toList ∧
      LiesInString (Text.lines j.source.toList) 1 ∧
      "hello".toList ∉ splitAtFeeds (render (j.generate 0).value.1).toList := by
  intro j
  have hlines : Text.lines j.source.toList =
      ["x = '''".toList, "hello".toList, "'''".toList] := by decide +kernel
  have hvalid : j.trigger.IsValid := show (parseInterval "5m").value.isSome = true by
    decide +kernel
  have hstring : LiesInString (Text.lines j.source.toList) 1 := by
    rw [hlines]
    exact ⟨.single, by
        decide +kernel, by
          decide +kernel, "'''".toList, by decide +kernel, by decide +kernel⟩
  refine ⟨by decide +kernel, hvalid, by decide +kernel, hstring, ?_⟩
  rw [render, String.toList_ofList]
  decide +kernel

end Job

end NotebookService
