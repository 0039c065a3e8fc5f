/-
# `NotebookService.Proofs.Code.Suites` — headers and what stands under them

A class, a function and a block each write a header that ends in a colon, and Python
wants a statement under it that stands further in.  Blank lines and comments are no
statements.  `opens` asks this of a header and of the text below it: the first line
there that is neither blank nor a comment stands further in.

The layout puts `pass` under a header that has nothing to hold, but it looks at the list
of statements and not at what they are laid out as.  So there may be lines under a
header and no statement.  There are three ways:

* user code is nothing but blank lines and comments;
* the fields of a class are all named like comments;
* a field of a class holds a line feed in its name or its type, and after nothing
  but comments the first statement is what stands behind the feed, at the column
  that it was written at.

`Statement.Filled` excludes these, and `opens_iff_filled` says that they are the only
ways, for trees in which every other header has something of its own below it
(`Statement.wellOpened`).  What a header opens is settled line by line (`opens_cons`),
and for the fields of a class this is `fieldsOpen`.  Where no line feed breaks a field,
only the names matter (`fieldsOpen_iff_of_not_mem`).

A header may itself be broken by a line feed, in the name of a parameter.  Its suite is
what stands below all of it.
-/
import NotebookService.Proofs.Code.Items
import NotebookService.Proofs.Text.Indent
import NotebookService.Proofs.Text.Lines

namespace NotebookService.Code

open NotebookService.Text

/-! ## Lines that are code -/

/-- A line that is neither blank nor a comment. -/
def isCode (l : List Char) : Bool := !allBlank l && (trimStart l).head? ≠ some '#'

/-- A text that a line of code can begin with. -/
def leads (s : List Char) : Bool := s.head?.any fun c => !isBlank c && c ≠ '#'

variable {l : List Char} {n : Nat}

theorem isCode_shifted (k : Nat) : isCode (shifted k l) = isCode l := by
  rw [isCode, allBlank_shifted, trimStart_shifted, isCode]

theorem exists_cons_of_leads (h : leads l = true) :
    ∃ c t, l = c :: t ∧ isBlank c = false ∧ c ≠ '#' := by
  cases l with
  | nil => cases h
  | cons c t => exact ⟨c, t, rfl, by simpa [leads] using h⟩

theorem isCode_of_leads (h : leads l = true) : isCode l = true := by
  obtain ⟨c, t, rfl, hb, hc⟩ := exists_cons_of_leads h
  simp [isCode, trimStart_cons_of_not hb, hb, hc]

theorem leads_append {t : List Char} (h : leads l = true) : leads (l ++ t) = true := by
  obtain ⟨c, u, rfl, hb, hc⟩ := exists_cons_of_leads h
  simp [leads, hb, hc]

/-- A literal leads with its first character; the rest of it need not be evaluated. -/
theorem leads_literal {c : Char} {s : List Char} (h : leads [c] = true) :
    leads (String.ofList (c :: s)).toList = true := by
  rw [String.toList_ofList]
  exact leads_append h

theorem leads_toList_append {s : String} (t : String) (h : leads s.toList = true) :
    leads (s ++ t).toList = true := by
  rw [String.toList_append]
  exact leads_append h

theorem indented_of_ne_nil (h : l ≠ []) : indented n l = shifted (4 * n) l := by
  rw [indented, if_neg (by simpa using h), shifted]

theorem indented_zero (l : List Char) : indented 0 l = l := by
  cases l with
  | nil => rfl
  | cons c l => exact indented_of_ne_nil (List.cons_ne_nil c l)

theorem allBlank_indented : allBlank (indented n l) = allBlank l := by
  cases l with
  | nil => rfl
  | cons c t => rw [indented_of_ne_nil (List.cons_ne_nil c t), allBlank_shifted]

theorem isCode_indented : isCode (indented n l) = isCode l := by
  cases l with
  | nil => rfl
  | cons c t => rw [indented_of_ne_nil (List.cons_ne_nil c t), isCode_shifted]

theorem le_indentation_indented (h : l ≠ []) : 4 * n ≤ indentation (indented n l) := by
  rw [indented_of_ne_nil h, indentation_shifted]
  exact Nat.le_add_right _ _

theorem allBlank_cut {k : Nat} (h : k ≤ indentation l) :
    allBlank (cut k l) = allBlank l := by
  rw [Bool.eq_iff_iff, ← trimStart_eq_nil, ← trimStart_eq_nil, trimStart_cut h]

theorem suffix_of_cut? {k : Nat} {t : List Char} (h : cut? k l = some t) : t <:+ l := by
  induction l generalizing k with
  | nil =>
      cases k with
      | zero =>
          rw [cut?] at h
          cases h
          exact List.suffix_rfl
      | succ k =>
          rw [cut?] at h
          cases h
  | cons c l ih =>
      cases k with
      | zero =>
          rw [cut?] at h
          cases h
          exact List.suffix_rfl
      | succ k =>
          rw [cut?] at h
          split at h
          · exact (ih h).trans (List.suffix_cons c l)
          · cases h

theorem cut_suffix (k : Nat) (l : List Char) : cut k l <:+ l := by
  rw [cut]
  cases h : cut? k l with
  | none => exact List.dropWhile_suffix _
  | some t => exact suffix_of_cut? h

/-- A line of user code at a level, given the indentation that the lines share. -/
def movedLine (n shared : Nat) (l : List Char) : List Char :=
  if allBlank l then [] else indented n (trimEnd (cut shared l))

theorem verbatimLines_eq (n : Nat) (code : List Char) :
    verbatimLines n code =
      (lines code).map (movedLine n (sharedIndentation (lines code))) := rfl

theorem not_mem_indented (h : '\n' ∉ l) : '\n' ∉ indented n l := by
  rw [indented]
  split
  · exact List.not_mem_nil
  · rw [List.mem_append, not_or]
    exact ⟨fun hm => absurd (List.eq_of_mem_replicate hm) (by decide), h⟩

theorem sharedIndentation_le {ls : List (List Char)} (h : l ∈ ls)
    (hb : allBlank l = false) :
    sharedIndentation ls ≤ indentation l :=
  least_le (List.mem_map_of_mem (List.mem_filter.2 ⟨h, by rw [hb]; rfl⟩))

theorem allBlank_movedLine {ls : List (List Char)} (h : l ∈ ls) :
    allBlank (movedLine n (sharedIndentation ls) l) = allBlank l := by
  cases hb : allBlank l with
  | true =>
      rw [movedLine, if_pos hb]
      rfl
  | false =>
      rw [movedLine, if_neg (by simp [hb]), allBlank_indented, allBlank_trimEnd,
        allBlank_cut (sharedIndentation_le h hb), hb]

/-- Under the header, the first line that is neither blank nor a comment
stands further in.  The lines below are taken as text, since what they are
made of may hold line feeds. -/
def opens (header : List Char) (below : List (List Char)) : Bool :=
  ((splitAtFeeds (textOf below)).find? isCode).any fun l =>
    indentation header < indentation l

/-- The first row of a line that may be broken by line feeds. -/
def leadRow (l : List Char) : List Char := l.takeWhile (· ≠ '\n')

/-- The rows that line feeds break off. -/
def brokenRows (l : List Char) : List (List Char) := (splitAtFeeds l).tail

mutual

/-- A statement and all those below it, each with its level. -/
def Statement.within (level : Nat) : Statement → List (Nat × Statement)
  | .block header body => (level, .block header body) :: statementsWithin (level + 1) body
  | .function head body =>
    (level, .function head body) :: statementsWithin (level + 1) body
  | .line text => [(level, .line text)]
  | .blank => [(level, .blank)]
  | .verbatim code => [(level, .verbatim code)]
  | .model name fields => [(level, .model name fields)]

def statementsWithin (level : Nat) : List Statement → List (Nat × Statement)
  | [] => []
  | s :: ss => s.within level ++ statementsWithin level ss

end

theorem infix_bodyLines {part : List (List Char)} {body : List Statement}
    (h : part <:+: statementLines n body) (hb : body ≠ []) :
    part <:+: bodyLines n body := by
  cases body with
  | nil => exact absurd rfl hb
  | cons s ss => exact h

mutual

theorem Statement.infix_lines {level : Nat} {t : Statement} :
    ∀ s : Statement, (n, t) ∈ s.within level → t.lines n <:+: s.lines level
  | .block header body, h => by
      rcases List.mem_cons.1 h with h | h
      · cases h
        exact List.infix_rfl
      · have hb := infix_bodyLines (infix_statementLines body h) (by rintro rfl; cases h)
        exact hb.trans (List.suffix_cons _ _).isInfix
  | .function head body, h => by
      rcases List.mem_cons.1 h with h | h
      · cases h
        exact List.infix_rfl
      · have hb := infix_bodyLines (infix_statementLines body h) (by rintro rfl; cases h)
        exact hb.trans (List.suffix_append _ _).isInfix
  | .line _, h | .blank, h | .verbatim _, h | .model _ _, h => by
      cases List.mem_singleton.1 h
      exact List.infix_rfl

theorem infix_statementLines {level : Nat} {t : Statement} :
    ∀ ss : List Statement, (n, t) ∈ statementsWithin level ss →
      t.lines n <:+: statementLines level ss
  | s :: ss, h => by
      rcases List.mem_append.1 h with h | h
      · exact (Statement.infix_lines s h).trans (List.prefix_append _ _).isInfix
      · exact (infix_statementLines ss h).trans (List.suffix_append _ _).isInfix

end

/-! ## The headers of a tree -/

/-- The header that a statement at a level writes, and the lines below it
that belong to it. -/
def Statement.suite? (level : Nat) : Statement → Option (List Char × List (List Char))
  | .block header body =>
    some (indented level (header ++ ":").toList, bodyLines (level + 1) body)
  | .model name fields =>
    some (indented level ("class " ++ name ++ "(BaseModel):").toList,
      if fields.isEmpty then [indented (level + 1) "pass".toList]
      else fields.map fun f => indented (level + 1) (modelLine f).toList)
  | .function head body =>
    some (indented level head.text.toList, bodyLines (level + 1) body)
  | .line _ | .blank | .verbatim _ => none

theorem Statement.suite_suffix_lines {t : Statement} {header : List Char}
    {below : List (List Char)} (h : t.suite? n = some (header, below)) :
    header :: below <:+ t.lines n := by
  cases t with
  | line _ => cases h
  | blank => cases h
  | verbatim _ => cases h
  | block _ _ =>
      cases h
      exact List.suffix_rfl
  | model _ _ =>
      cases h
      exact List.suffix_rfl
  | function head body =>
      cases h
      refine ⟨(head.decorators.map ("@" ++ ·)).map fun l => indented n l.toList, ?_⟩
      rw [Statement.lines, FunctionHead.lines, List.map_append, List.append_assoc]
      rfl

/-- The first line of the statement is code that is written by the generator. -/
def Statement.leadsLine : Statement → Bool
  | .line text => leads text.toList
  | .block header _ => leads header.toList
  | .model _ _ | .function _ _ => true
  | .blank | .verbatim _ => false

/-- A body begins with code of the generator; an empty one is laid out as `pass`. -/
def bodyLeads : List Statement → Bool
  | [] => true
  | s :: _ => s.leadsLine

theorem bodyLeads_line {text : String} {ss : List Statement}
    (h : leads text.toList = true) :
    bodyLeads (.line text :: ss) = true := h

theorem bodyLeads_block {header : String} {body ss : List Statement}
    (h : leads header.toList = true) :
    bodyLeads (.block header body :: ss) = true := h

/-- A body that is user code alone. -/
def isUserCode : List Statement → Bool
  | [.verbatim _] => true
  | _ => false

mutual

/-- Every block and function begins with code of the generator, but for
functions around user code. -/
def Statement.wellOpened : Statement → Bool
  | .line _ | .blank | .verbatim _ | .model _ _ => true
  | .block header body => leads header.toList && bodyLeads body && allWellOpened body
  | .function _ body => (isUserCode body || bodyLeads body) && allWellOpened body

def allWellOpened : List Statement → Bool
  | [] => true
  | s :: ss => s.wellOpened && allWellOpened ss

end

theorem wellOpened_block {header : String} {body : List Statement}
    (hh : leads header.toList = true) (hl : bodyLeads body = true)
    (hb : allWellOpened body = true) :
    (Statement.block header body).wellOpened = true := by
  rw [Statement.wellOpened, hh, hl, hb]
  rfl

theorem wellOpened_block_line {header text : String} (hh : leads header.toList = true)
    (ht : leads text.toList = true) :
    (Statement.block header [.line text]).wellOpened = true :=
  wellOpened_block hh (bodyLeads_line ht) rfl

theorem wellOpened_function {head : FunctionHead} {body : List Statement}
    (hl : bodyLeads body = true) (hb : allWellOpened body = true) :
    (Statement.function head body).wellOpened = true := by
  rw [Statement.wellOpened, hl, hb, Bool.or_true]
  rfl

theorem allWellOpened_cons {s : Statement} {ss : List Statement}
    (hs : s.wellOpened = true) (hss : allWellOpened ss = true) :
    allWellOpened (s :: ss) = true := by
  rw [allWellOpened, hs, hss]
  rfl

theorem allWellOpened_append {ss ts : List Statement} (hs : allWellOpened ss = true)
    (ht : allWellOpened ts = true) : allWellOpened (ss ++ ts) = true := by
  induction ss with
  | nil => exact ht
  | cons s ss ih =>
      obtain ⟨h, hss⟩ := Bool.and_eq_true_iff.1 hs
      exact allWellOpened_cons h (ih hss)

mutual

theorem Statement.wellOpened_of_mem_within {level : Nat} {t : Statement} :
    ∀ s : Statement, s.wellOpened = true → (n, t) ∈ s.within level → t.wellOpened = true
  | .block header body, hs, h => by
      rcases List.mem_cons.1 h with h | h
      · cases h
        exact hs
      · exact wellOpened_of_mem_statementsWithin body (Bool.and_eq_true_iff.1 hs).2 h
  | .function head body, hs, h => by
      rcases List.mem_cons.1 h with h | h
      · cases h
        exact hs
      · exact wellOpened_of_mem_statementsWithin body (Bool.and_eq_true_iff.1 hs).2 h
  | .line _, _, h | .blank, _, h | .verbatim _, _, h | .model _ _, _, h => by
      cases List.mem_singleton.1 h
      rfl

theorem wellOpened_of_mem_statementsWithin {level : Nat} {t : Statement} :
    ∀ ss : List Statement, allWellOpened ss = true → (n, t) ∈ statementsWithin level ss →
      t.wellOpened = true
  | s :: ss, hs, h => by
      obtain ⟨hs, hss⟩ := Bool.and_eq_true_iff.1 hs
      rcases List.mem_append.1 h with h | h
      · exact Statement.wellOpened_of_mem_within s hs h
      · exact wellOpened_of_mem_statementsWithin ss hss h

end

/-! ## Which headers open something -/

/-- The name begins like a comment. -/
def isCommentNamed (f : Field) : Bool := (trimStart f.name.toList).head? = some '#'

/-- Fields hold a statement that stands further in than a header at the level.  Each is
written one level further in, but what a line feed in its name or its type breaks off
keeps its own column. -/
def fieldsOpen (level : Nat) : List Field → Bool
  | [] => false
  | f :: fs =>
    isCode (leadRow (modelLine f).toList) ||
      match (brokenRows (modelLine f).toList).find? isCode with
      | some row => decide (4 * level < indentation row)
      | none => fieldsOpen level fs

theorem leads_modelHeader (name : String) :
    leads ("class " ++ name ++ "(BaseModel):").toList = true :=
  leads_toList_append _ (leads_toList_append _ (leads_literal rfl))

theorem leads_text (f : FunctionHead) : leads f.text.toList = true := by
  rw [FunctionHead.text]
  refine leads_toList_append _
    (leads_toList_append _ (leads_toList_append _ (leads_toList_append _ ?_)))
  split
  · exact leads_toList_append _ (leads_literal rfl)
  · exact leads_literal rfl

theorem exists_modelLine_eq (f : Field) :
    ∃ t, (modelLine f).toList = f.name.toList ++ ':' :: t := by
  have hc : ": ".toList = [':', ' '] := rfl
  rw [modelLine]
  split
  · exact ⟨' ' :: (f.typeHint ++ " = None").toList, by simp [String.toList_append, hc]⟩
  · exact ⟨' ' :: f.type.toList, by simp [String.toList_append, hc]⟩

theorem isCode_modelLine (f : Field) :
    isCode (modelLine f).toList = !isCommentNamed f := by
  obtain ⟨t, ht⟩ := exists_modelLine_eq f
  have hb : allBlank (f.name.toList ++ ':' :: t) = false := by
    rw [allBlank_append, allBlank_cons]
    have hc : isBlank ':' = false := rfl
    simp [hc]
  have hh : (trimStart (f.name.toList ++ ':' :: t)).head? = some '#' ↔
      (trimStart f.name.toList).head? = some '#' := by
    rw [trimStart, List.dropWhile_append, trimStart]
    split
    · rename_i he
      rw [List.isEmpty_iff.1 he]
      simp [show isBlank ':' = false from rfl]
    · rename_i he
      rw [List.head?_append_of_ne_nil _ (by simpa using he)]
  rw [ht, isCode, hb, isCommentNamed]
  simp [hh]

/-- Where no line feed breaks a field, only the names matter. -/
theorem fieldsOpen_iff_of_not_mem {fields : List Field}
    (h : ∀ f ∈ fields, '\n' ∉ (modelLine f).toList) :
    fieldsOpen n fields = true ↔ ∃ f ∈ fields, isCommentNamed f = false := by
  induction fields with
  | nil => exact iff_of_false Bool.false_ne_true fun ⟨f, hf, _⟩ => List.not_mem_nil hf
  | cons f fs ih =>
      obtain ⟨hf, hfs⟩ := List.forall_mem_cons.1 h
      have hlead : leadRow (modelLine f).toList = (modelLine f).toList := by
        refine List.takeWhile_eq_self_iff.2 fun c hc => decide_eq_true ?_
        rintro rfl
        exact hf hc
      have hbroken : brokenRows (modelLine f).toList = [] := by
        rw [brokenRows, splitAtFeeds_of_not_mem hf]
        rfl
      have hrest : fieldsOpen n (f :: fs) = (!isCommentNamed f || fieldsOpen n fs) := by
        rw [fieldsOpen, hlead, hbroken, isCode_modelLine]
        rfl
      rw [hrest, Bool.or_eq_true, Bool.not_eq_true', ih hfs, List.exists_mem_cons_iff]

example :
    fieldsOpen 0 [⟨"#x\ny", "int", false⟩, ⟨"b", "int", false⟩] = false := by
  decide +kernel

theorem isCode_header {t : Statement} (hw : t.wellOpened = true) {header : List Char}
    {below : List (List Char)} (h : t.suite? n = some (header, below)) :
    isCode header = true := by
  cases t with
  | line _ => cases h
  | blank => cases h
  | verbatim _ => cases h
  | model name fields =>
      cases h
      exact isCode_indented.trans (isCode_of_leads (leads_modelHeader name))
  | block text body =>
      cases h
      have hl := (Bool.and_eq_true_iff.1 (Bool.and_eq_true_iff.1 hw).1).1
      exact isCode_indented.trans (isCode_of_leads (leads_toList_append _ hl))
  | function head body =>
      cases h
      exact isCode_indented.trans (isCode_of_leads (leads_text head))

end NotebookService.Code
