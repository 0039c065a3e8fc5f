/-
# `NotebookService.Proofs.Job.Decorators` — where the decorator of a job stands

A decorator may go on over several lines as long as one of its brackets is open, and
blank lines and comments may stand between two decorators and between the last one and
the function.  The scheduler's decorator belongs above all of that, since it registers
what stands below it.

It is put above the lines right above the function that begin with `@` at its column.
These are the function's decorators when each of them takes up one line and nothing
stands between them (`decorator_above_all_iff`).  Otherwise the search ends too early,
at the last line of a decorator with an open bracket for instance, and the function is
registered without the decorators above that line.
-/
import NotebookService.Proofs.Job.Splice

namespace NotebookService

open NotebookService.Text

/-! ## Brackets over several lines -/

/-- Where a reader of brackets stands at the end of a line of code; a
comment is not read. -/
def Text.Nesting.afterLine (n : Nesting) : List Char → Nesting
  | [] => n
  | c :: l => if n.quote.isNone && c = '#' then n else (n.step c).afterLine l

/-- The lines go on with what is open before them: a bracket is open before each of
them, and none behind the last. -/
def goesOn (n : Nesting) : List (List Char) → Bool
  | [] => n = .top
  | l :: ls => n.depth ≠ 0 && goesOn (n.afterLine l) ls

namespace Job

/-- A line with nothing to run: it is blank, or a comment. -/
def isIdle (l : List Char) : Bool := allBlank l || (trimStart l).head? = some '#'

/-- A decorator as it stands above a function, with the idle lines below it. -/
structure OwnDecorator where
  first : List Char
  more : List (List Char)
  idle : List (List Char)
  begins : (trimStart first).head? = some '@'
  closes : goesOn (Nesting.top.afterLine first) more = true
  rests : ∀ l ∈ idle, isIdle l = true

namespace OwnDecorator

def lines (d : OwnDecorator) : List (List Char) := d.first :: (d.more ++ d.idle)

/-- The decorator takes up nothing but lines that begin with `@` at the
function's column. -/
def Seen (indent : Nat) (d : OwnDecorator) : Prop :=
  d.idle = [] ∧ ∀ l ∈ d.first :: d.more, Marked indent l

end OwnDecorator

theorem not_isDecorator_of_isIdle {indent : Nat} {l : List Char} (h : isIdle l = true) :
    isDecorator indent l = false := by
  have hh : (trimStart l).head? ≠ some '@' := by
    rw [isIdle, Bool.or_eq_true] at h
    rcases h with h | h
    · rw [trimStart_eq_nil.2 h]
      nofun
    · rw [of_decide_eq_true h]
      decide
  rw [isDecorator, decide_eq_false hh, Bool.false_and]

theorem OwnDecorator.seen_iff {indent : Nat} (d : OwnDecorator) :
    (∀ l ∈ d.lines, isDecorator indent l = true) ↔ d.Seen indent := by
  constructor
  · intro h
    refine ⟨List.eq_nil_iff_forall_not_mem.2 fun l hl => ?_,
      fun l hl => isDecorator_iff.1 (h l ?_)⟩
    · have hd := h l (List.mem_cons_of_mem _ (List.mem_append_right _ hl))
      rw [not_isDecorator_of_isIdle (d.rests l hl)] at hd
      cases hd
    · exact (List.sublist_append_left (d.first :: d.more) d.idle).subset hl
  · rintro ⟨hidle, hm⟩ l hl
    rw [lines, hidle, List.append_nil] at hl
    exact isDecorator_iff.2 (hm l hl)

instance (indent : Nat) (d : OwnDecorator) : Decidable (d.Seen indent) :=
  decidable_of_iff _ d.seen_iff

theorem length_rdropWhile_append_iff {α : Type} (p : α → Bool) (as bs : List α) :
    ((as ++ bs).rdropWhile p).length = as.length ↔ (∀ b ∈ bs, p b = true) ∧
      ∀ a ∈ as.getLast?, p a = false := by
  by_cases hb : ∀ b ∈ bs, p b = true
  · rw [rdropWhile_append_of_all hb]
    have hself : (as.rdropWhile p).length = as.length ↔ as.rdropWhile p = as :=
      ⟨(List.rdropWhile_prefix p as).eq_of_length, congrArg List.length⟩
    rw [hself, List.rdropWhile_eq_self_iff]
    constructor
    · intro h
      refine ⟨hb, fun a ha => ?_⟩
      obtain ⟨hne, rfl⟩ := List.mem_getLast?_eq_getLast ha
      exact Bool.eq_false_iff.2 (h hne)
    · rintro ⟨-, h⟩ hne
      exact Bool.eq_false_iff.1 (h _ (List.getLast_mem_getLast? hne))
  · rw [rdropWhile_append_of_not hb, List.length_append]
    constructor
    · intro h
      have hnil : bs.rdropWhile p = [] := List.eq_nil_of_length_eq_zero (by omega)
      exact absurd (List.rdropWhile_eq_nil_iff.1 hnil) hb
    · rintro ⟨h, -⟩
      exact absurd h hb

/-! ## The place -/

/-- The decorator of a job goes above all of the function's own decorators if each of
these is on one line at the function's column and nothing stands between them or behind
them, and if the line above them does not look like one of them; and only then. -/
theorem decorator_above_all_iff {source : String} {s : Signature}
    (h : Signature.ofSource? source = some s) {before below : List (List Char)}
    {ds : List OwnDecorator}
    (hl : Text.lines source.toList = before ++ ds.flatMap OwnDecorator.lines ++ below)
    (hs : (before ++ ds.flatMap OwnDecorator.lines).length = s.line) {decorator : String}
    (hd : '\n' ∉ decorator.toList) :
    ∃ margin place, allBlank margin = true ∧ width margin = s.indent ∧
      splitAtFeeds (decorateSource source s decorator).toList =
        (Text.lines source.toList).insertIdx place (margin ++ '@' :: decorator.toList) ∧
      (place = before.length ↔
        (∀ d ∈ ds, d.Seen s.indent) ∧ ∀ l ∈ before.getLast?, ¬ Marked s.indent l) := by
  obtain ⟨l, rest, hget, hi, -⟩ := Signature.exists_line_of_ofLines? h
  refine ⟨l.takeWhile isBlank, (linesAbove (Text.lines source.toList) s).length,
    List.all_takeWhile, hi, ?_, ?_⟩
  · rw [splitAtFeeds_decorateSource h hd, decorate_eq, decoratorLine_eq hget]
  · rw [linesAbove, hl, ← hs, List.take_left, length_rdropWhile_append_iff,
      List.forall_mem_flatMap]
    refine and_congr ?_ ?_
    · exact forall₂_congr fun d _ => d.seen_iff
    · exact forall₂_congr fun l _ => by rw [← isDecorator_iff, Bool.not_eq_true]

/-- Two decorators of one line each, the first with a bracket, below an import. -/
theorem decorator_above_all_iff_two :
    let source := "import log\n@log.calls(to='job')\n@log.times\ndef f(): pass"
    let s : Signature := ⟨"f", [], false, 3, 0⟩
    let ds : List OwnDecorator :=
      [⟨"@log.calls(to='job')".toList, [], [], rfl, rfl, nofun⟩,
        ⟨"@log.times".toList, [], [], rfl, rfl, nofun⟩]
    Signature.ofSource? source = some s ∧
      Text.lines source.toList =
        ["import log".toList] ++ ds.flatMap OwnDecorator.lines ++
        ["def f(): pass".toList] ∧
      ∃ margin, width margin = 0 ∧ splitAtFeeds (decorateSource source s "job").toList =
        (Text.lines source.toList).insertIdx 1 (margin ++ '@' :: "job".toList) := by
  intro source s ds
  have hs : Signature.ofSource? source = some s := by decide +kernel
  have hl : Text.lines source.toList =
      ["import log".toList] ++ ds.flatMap OwnDecorator.lines ++
      ["def f(): pass".toList] := by decide +kernel
  obtain ⟨margin, place, -, hw, hsplit, hp⟩ :=
    decorator_above_all_iff hs hl (by decide +kernel)
    (show '\n' ∉ "job".toList by decide)
  obtain rfl : place = 1 := hp.2 (by decide +kernel)
  exact ⟨hs, hl, margin, hw, hsplit⟩

/-- A decorator over three lines, closed by a bracket at the function's column. -/
def retrying : OwnDecorator :=
  ⟨"@retry(".toList, ["    3".toList, ")".toList], [], rfl, rfl, nofun⟩

/-- The job's decorator ends up below a decorator of several lines. -/
theorem decorator_below_bracket :
    let source := "@retry(\n    3\n)\ndef f():\n    pass"
    let s : Signature := ⟨"f", [], false, 3, 0⟩
    Signature.ofSource? source = some s ∧
      Text.lines source.toList =
        retrying.lines ++ ["def f():".toList, "    pass".toList] ∧
      decorateSource source s "job" = "@retry(\n    3\n)\n@job\ndef f():\n    pass" := by
  decide +kernel

end Job

end NotebookService
