/-
# `NotebookService.Proofs.Code.Literal` — string literals are read back

A literal stands between two apostrophes, and no apostrophe between them is bare: each
one of the text has a backslash in front, and so has each backslash, so that none of
them can take away the meaning of what follows it.  Undoing the escapes therefore gives
the text back, whatever it is (`unescape?_flatMap`).

A line feed is written as an escape as well, but a carriage return is not.  It ends a
line of Python as a line feed does, so a text that has one gets a literal over two
lines.  The fields of a cron expression are words and have none; a route's path may have
one in its middle.
-/
import NotebookService.Cell
import NotebookService.Proofs.Text.Trim

namespace NotebookService.Code

open NotebookService.Text

/-! ## Undoing the escapes -/

/-- What a character behind a backslash stands for. -/
def escaped? (c : Char) : Option Char :=
  if c = '\\' then some '\\'
  else if c = '\'' then some '\''
  else if c = 'n' then some '\n'
  else none

/-- The text that stands between the apostrophes of a literal.  None if an apostrophe or
a line feed there is bare, or if a backslash begins no escape. -/
def unescape? : List Char → Option (List Char)
  | [] => some []
  | [c] => if c = '\\' ∨ c = '\'' ∨ c = '\n' then none else some [c]
  | c :: d :: s =>
    if c = '\\' then (escaped? d).bind fun e => (unescape? s).map (e :: ·)
    else if c = '\'' ∨ c = '\n' then none
    else (unescape? (d :: s)).map (c :: ·)

theorem unescape?_escape {c d : Char} (h : escaped? d = some c) (s : List Char) :
    unescape? ('\\' :: d :: s) = (unescape? s).map (c :: ·) := by
  rw [unescape?, if_pos rfl, h, Option.bind_some]

theorem unescape?_cons {c : Char} (hs : c ≠ '\\') (ha : c ≠ '\'') (hn : c ≠ '\n')
    (s : List Char) :
    unescape? (c :: s) = (unescape? s).map (c :: ·) := by
  cases s with
  | nil => simp [unescape?, hs, ha, hn]
  | cons d s => simp [unescape?, hs, ha, hn]

/-- The escapes that are written are undone, one character after the other. -/
theorem unescape?_literalChar (c : Char) (s : List Char) :
    unescape? (literalChar c ++ s) = (unescape? s).map (c :: ·) := by
  unfold literalChar
  split
  · exact unescape?_escape rfl s
  · exact unescape?_escape rfl s
  · exact unescape?_escape rfl s
  · rename_i hs ha hn
    exact unescape?_cons hs ha hn s

theorem unescape?_flatMap (s : List Char) :
    unescape? (s.flatMap literalChar) = some s := by
  induction s with
  | nil => rfl
  | cons c s ih =>
      rw [List.flatMap_cons, unescape?_literalChar, ih]
      rfl

/-! ## Line ends -/

/-- No character of the text ends a line of Python. -/
def OnOneLine (s : List Char) : Prop := '\n' ∉ s ∧ '\r' ∉ s

theorem feed_not_mem_literalChar (c : Char) : '\n' ∉ literalChar c := by
  intro h
  unfold literalChar at h
  split at h
  · exact absurd h (by decide)
  · exact absurd h (by decide)
  · exact absurd h (by decide)
  · rename_i hn
    exact hn (List.mem_singleton.1 h).symm

theorem return_mem_literalChar {c : Char} : '\r' ∈ literalChar c ↔ c = '\r' := by
  constructor
  · intro h
    unfold literalChar at h
    split at h
    · exact absurd h (by decide)
    · exact absurd h (by decide)
    · exact absurd h (by decide)
    · exact (List.mem_singleton.1 h).symm
  · rintro rfl
    exact List.mem_singleton.2 rfl

theorem toList_literal (s : String) :
    (literal s).toList = '\'' :: (s.toList.flatMap literalChar ++ ['\'']) := by
  rw [literal, String.toList_ofList, literalChars, List.cons_append]

theorem mem_literal {s : String} {c : Char} (hc : c ≠ '\'') :
    c ∈ (literal s).toList ↔ ∃ d ∈ s.toList, c ∈ literalChar d := by
  rw [toList_literal]
  simp [hc]

theorem feed_not_mem_literal (s : String) : '\n' ∉ (literal s).toList := by
  rw [mem_literal (by decide)]
  rintro ⟨c, -, hc⟩
  exact feed_not_mem_literalChar c hc

theorem return_mem_literal (s : String) : '\r' ∈ (literal s).toList ↔
      '\r' ∈ s.toList := by
  rw [mem_literal (by decide)]
  constructor
  · rintro ⟨c, hc, hr⟩
    rwa [return_mem_literalChar.1 hr] at hc
  · intro h
    exact ⟨'\r', h, return_mem_literalChar.2 rfl⟩

theorem onOneLine_literal_iff (s : String) :
    OnOneLine (literal s).toList ↔ '\r' ∉ s.toList := by
  rw [OnOneLine, return_mem_literal]
  exact and_iff_right (feed_not_mem_literal s)

/-! ## Cron fields -/

theorem mem_words_of_mem_arguments {expression : String} {fields : Job.CronFields}
    (h : (Job.parseCron expression).value = some fields) {a : String × String}
    (ha : a ∈ fields.arguments) :
    a.2 ∈ (words expression.toList).map String.ofList := by
  unfold Job.parseCron at h
  dsimp only at h
  split at h
  · rename_i second minute hour day month dayOfWeek extra heq
    have hfields : some ⟨second, minute, hour, day, month, dayOfWeek⟩ = some fields := by
      rw [← h]
      split <;> rfl
    cases hfields
    rw [heq]
    simp only [Job.CronFields.arguments, List.mem_cons, List.not_mem_nil, or_false] at ha
    rcases ha with rfl | rfl | rfl | rfl | rfl | rfl <;> simp
  · cases h

theorem onOneLine_cronField {expression : String} {fields : Job.CronFields}
    (h : (Job.parseCron expression).value = some fields) {a : String × String}
    (ha : a ∈ fields.arguments) :
    OnOneLine (literal a.2).toList := by
  obtain ⟨w, hw, hval⟩ := List.mem_map.1 (mem_words_of_mem_arguments h ha)
  rw [onOneLine_literal_iff, ← hval, String.toList_ofList]
  intro hr
  exact absurd (noBlank_of_mem_words hw '\r' hr) (by decide)

/-! ## The literal of a text -/

/-- A literal has its text between two apostrophes, and undoing the escapes there gives
the text back.  It stands on one line unless the text has a carriage return, and no
field of a cron expression has one. -/
theorem literal_on_one_line_iff (s : String) :
    (∃ inner, (literal s).toList = '\'' :: (inner ++ ['\'']) ∧
      unescape? inner = some s.toList) ∧
      (OnOneLine (literal s).toList ↔ '\r' ∉ s.toList) ∧
      ∀ expression fields, (Job.parseCron expression).value = some fields →
        ∀ a ∈ fields.arguments, OnOneLine (literal a.2).toList := by
  refine ⟨⟨_, toList_literal s, unescape?_flatMap s.toList⟩, onOneLine_literal_iff s, ?_⟩
  intro expression fields h a ha
  exact onOneLine_cronField h ha

/-- An apostrophe behind a backslash, and a cron expression whose last field
ends in an apostrophe. -/
theorem literal_on_one_line_iff_apostrophe :
    (∃ inner, (literal "\\'\n").toList = '\'' :: (inner ++ ['\'']) ∧
      unescape? inner = some "\\'\n".toList) ∧
      OnOneLine (literal "\\'\n").toList ∧
      ∃ fields, (Job.parseCron "0 0 12 * * mon'").value = some fields ∧
      OnOneLine (literal fields.dayOfWeek).toList := by
  obtain ⟨hinner, hline, hcron⟩ := literal_on_one_line_iff "\\'\n"
  have hfields : (Job.parseCron "0 0 12 * * mon'").value =
      some ⟨"0", "0", "12", "*", "*", "mon'"⟩ := by
    decide +kernel
  refine ⟨hinner, hline.2 (by decide), _, hfields, ?_⟩
  exact hcron _ _ hfields ("day_of_week", "mon'") (by simp [Job.CronFields.arguments])

/-- The path of a route can have a carriage return, and then its literal does not end on
the line on which it begins. -/
theorem return_in_route_literal :
    ∃ e, (CellSpec.ofSource "# @HTTP GET /a\rb\ndef f():\n    return 1").value =
      some (.http e) ∧
      '\r' ∈ e.path.toList ∧ ¬ OnOneLine (literal e.path).toList := by
  refine ⟨⟨⟨"/a\rb", [], []⟩, .get, [], [],
      "def f():\n    return 1"⟩, by decide +kernel, by decide, ?_⟩
  rw [OnOneLine]
  decide +kernel

end NotebookService.Code
