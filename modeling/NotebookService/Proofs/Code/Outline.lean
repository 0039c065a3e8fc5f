/-
# `NotebookService.Proofs.Code.Outline` — lines and blocks read off the text

A tree of lines and blocks is an outline: texts at depths, in pre-order.  The layout
writes such a tree out one line for each text, behind four spaces for each level, and
`pass` for a body that holds nothing.  The only other lines are two empty ones between
top-level items (`rows_renderChars`).

The outline determines the tree as long as no body is empty: what follows a text at a
greater depth is its body, and the next text that is not deeper ends it.
`outlineOf_append_inj` is this for trees with anything behind them that is not as
deep, since the texts behind a body belong to the trees that the body is in.  So
`pass` is written into the tree first (`withPass`), and then two trees with one
rendering are the same.
-/
import NotebookService.Proofs.Code.Items
import NotebookService.Proofs.Code.Suites

namespace NotebookService.Code

open NotebookService.Text

variable {s t : List Char} {ls : List (List Char)} {n d : Nat}

/-! ## Lines of a text -/

/-- The lines of a text: what stands between line feeds.  An empty text has none. -/
def rows (s : List Char) : List (List Char) := if s.isEmpty then [] else splitAtFeeds s

theorem rows_of_ne_nil (h : s ≠ []) : rows s = splitAtFeeds s := by
  rw [rows, if_neg (by simpa using h)]

/-- Two empty lines. -/
def twoEmpty : List (List Char) := [[], []]

theorem splitAtFeeds_gap (s t : List Char) :
    splitAtFeeds (s ++ gap ++ t) = splitAtFeeds s ++ twoEmpty ++ splitAtFeeds t := by
  rw [List.append_assoc, List.append_assoc]
  exact splitAtFeeds_append s ('\n' :: '\n' :: t)

theorem splitAtFeeds_intercalate_gap (t : List Char) (ts : List (List Char)) :
    splitAtFeeds (List.intercalate gap (t :: ts)) =
      List.intercalate twoEmpty ((t :: ts).map splitAtFeeds) := by
  induction ts generalizing t with
  | nil => simp
  | cons u ts ih =>
      rw [List.intercalate_cons_cons, splitAtFeeds_gap, ih, List.map_cons, List.map_cons,
        List.map_cons, List.intercalate_cons_cons]

theorem filter_intercalate_twoEmpty {lss : List (List (List Char))}
    (h : ∀ ls ∈ lss, ∀ l ∈ ls, l ≠ []) :
    (List.intercalate twoEmpty lss).filter (fun l => !l.isEmpty) = lss.flatten := by
  have hself {ls : List (List Char)} (hl : ∀ l ∈ ls, l ≠ []) :
      ls.filter (fun l => !l.isEmpty) = ls :=
    List.filter_eq_self.2 fun l hm => by simpa using hl l hm
  induction lss with
  | nil => rfl
  | cons ls lss ih =>
      obtain ⟨hls, hlss⟩ := List.forall_mem_cons.1 h
      cases lss with
      | nil => simpa using hself hls
      | cons ms lss =>
          rw [List.intercalate_cons_cons, List.filter_append, List.filter_append,
            hself hls, ih hlss, List.flatten_cons]
          exact congrArg (· ++ _) (List.append_nil ls)

/-! ## Outlines -/

/-- A text that stands on one line, right behind its indentation. -/
structure FitsLine (t : List Char) : Prop where
  ne_nil : t ≠ []
  feed : '\n' ∉ t
  head : ∀ c ∈ t.head?, isBlank c = false

theorem fitsLine_iff : FitsLine t ↔ t ≠ [] ∧ '\n' ∉ t ∧ t.head?.any isBlank = false := by
  rw [Option.any_eq_false]
  constructor
  · intro h
    exact ⟨h.ne_nil, h.feed, h.head⟩
  · rintro ⟨hne, hf, hh⟩
    exact ⟨hne, hf, hh⟩

instance (t : List Char) : Decidable (FitsLine t) := decidable_of_iff' _ fitsLine_iff

/-- A tree of lines and blocks whose texts stand on one line each. -/
inductive Statement.IsOutline : Statement → Prop
  | line {text : String} (ht : FitsLine text.toList) : IsOutline (.line text)
  | block {header : String} {body : List Statement} (hh : FitsLine header.toList)
      (hb : ∀ s ∈ body, IsOutline s) :
      IsOutline (.block header body)

/-- A tree of lines and blocks in which no body is empty. -/
inductive Statement.IsFull : Statement → Prop
  | line {text : String} : IsFull (.line text)
  | block {header : String} {body : List Statement} (hne : body ≠ [])
      (hb : ∀ s ∈ body, IsFull s) :
      IsFull (.block header body)

mutual

/-- The texts of a tree of lines and blocks in pre-order, each with its depth.  A
header has its colon. -/
def Statement.outline (depth : Nat) : Statement → List (Nat × List Char)
  | .line text => [(depth, text.toList)]
  | .block header body => (depth, header.toList ++ [':']) :: outlineOf (depth + 1) body
  | .blank | .verbatim _ | .model _ _ | .function _ _ => []

def outlineOf (depth : Nat) : List Statement → List (Nat × List Char)
  | [] => []
  | s :: ss => s.outline depth ++ outlineOf depth ss

end

mutual

/-- The tree with `pass` in every empty body. -/
def Statement.withPass : Statement → Statement
  | .block header body => .block header (bodyWithPass body)
  | .function head body => .function head (bodyWithPass body)
  | .line text => .line text
  | .blank => .blank
  | .verbatim code => .verbatim code
  | .model name fields => .model name fields

def bodyWithPass : List Statement → List Statement
  | [] => [.line "pass"]
  | s :: ss => s.withPass :: allWithPass ss

def allWithPass : List Statement → List Statement
  | [] => []
  | s :: ss => s.withPass :: allWithPass ss

end

theorem allWithPass_eq_map (ss : List Statement) :
    allWithPass ss = ss.map Statement.withPass := by
  induction ss with
  | nil => rfl
  | cons s ss ih => rw [allWithPass, ih, List.map_cons]

theorem forall_mem_bodyWithPass {p : Statement → Prop} (hpass : p (.line "pass"))
    {body : List Statement} (h : ∀ s ∈ body, p s.withPass) :
    ∀ s ∈ bodyWithPass body, p s := by
  intro s hs
  cases body with
  | nil =>
      rw [List.mem_singleton.1 hs]
      exact hpass
  | cons t ss =>
      rw [bodyWithPass, allWithPass_eq_map, ← List.map_cons] at hs
      obtain ⟨u, hu, rfl⟩ := List.mem_map.1 hs
      exact h u hu

theorem bodyWithPass_ne_nil (body : List Statement) : bodyWithPass body ≠ [] := by
  cases body <;> exact List.cons_ne_nil _ _

mutual

/-- The layout writes `pass` where the tree has it and where a body is empty, so it
makes no difference to write it into the tree. -/
theorem Statement.lines_withPass (level : Nat) :
    ∀ s : Statement, s.withPass.lines level = s.lines level
  | .block header body => by
      rw [Statement.withPass, Statement.lines, bodyLines_bodyWithPass (level + 1) body,
        Statement.lines]
  | .function head body => by
      rw [Statement.withPass, Statement.lines, bodyLines_bodyWithPass (level + 1) body,
        Statement.lines]
  | .line _ | .blank | .verbatim _ | .model _ _ => rfl

theorem bodyLines_bodyWithPass (level : Nat) :
    ∀ body : List Statement, bodyLines level (bodyWithPass body) = bodyLines level body
  | [] => rfl
  | s :: ss => by
      rw [bodyWithPass, bodyLines, Statement.lines_withPass level s,
        statementLines_allWithPass level ss, bodyLines]

theorem statementLines_allWithPass (level : Nat) :
    ∀ ss : List Statement, statementLines level (allWithPass ss) = statementLines level ss
  | [] => rfl
  | s :: ss => by
      rw [allWithPass, statementLines, Statement.lines_withPass level s,
        statementLines_allWithPass level ss, statementLines]

end

theorem renderChars_map_withPass (items : List Statement) :
    renderChars (items.map Statement.withPass) = renderChars items := by
  have htext : (items.map Statement.withPass).map Statement.text =
      items.map Statement.text := by
    rw [List.map_map]
    refine List.map_congr_left fun s _ => ?_
    rw [Function.comp_apply, Statement.text, Statement.lines_withPass, Statement.text]
  rw [renderChars, htext, renderChars]

theorem fitsLine_pass : FitsLine "pass".toList := by decide +kernel

theorem Statement.IsOutline.withPass {s : Statement} (h : s.IsOutline) :
    s.withPass.IsOutline := by
  induction h with
  | line ht => exact .line ht
  | block hh _ ih => exact .block hh (forall_mem_bodyWithPass (.line fitsLine_pass) ih)

theorem Statement.IsOutline.isFull_withPass {s : Statement} (h : s.IsOutline) :
    s.withPass.IsFull := by
  induction h with
  | line _ => exact .line
  | block _ _ ih =>
      exact .block (bodyWithPass_ne_nil _) (forall_mem_bodyWithPass .line ih)

/-! ## The lines of an outline -/

/-- A text at a depth, as a line. -/
def entryLine (e : Nat × List Char) : List Char := List.replicate (4 * e.1) ' ' ++ e.2

/-- The depth and the text that a line shows. -/
def entryOfLine (l : List Char) : Nat × List Char := (indentation l / 4, trimStart l)

theorem indented_eq_entryLine (h : t ≠ []) :
    indented n t = entryLine (n, t) := indented_of_ne_nil h

theorem FitsLine.append (h : FitsLine t) {u : List Char} (hu : '\n' ∉ u) :
    FitsLine (t ++ u) where
  ne_nil hnil := h.ne_nil (List.append_eq_nil_iff.1 hnil).1
  feed hm := (List.mem_append.1 hm).elim h.feed hu
  head := by
    rw [List.head?_append_of_ne_nil _ h.ne_nil]
    exact h.head

theorem FitsLine.trimStart_eq (h : FitsLine t) : trimStart t = t := by
  cases t with
  | nil => rfl
  | cons c t => exact trimStart_cons_of_not (h.head c rfl)

theorem entryOfLine_entryLine (h : FitsLine t) :
    entryOfLine (entryLine (d, t)) = (d, t) := by
  have hi : indentation t = 0 := by
    cases t with
    | nil => rfl
    | cons c t => exact indentation_cons_of_not (h.head c rfl)
  have hd : indentation (shifted (4 * d) t) / 4 = d := by
    rw [indentation_shifted, hi]
    omega
  have ht : trimStart (shifted (4 * d) t) = t := by
    rw [trimStart_shifted, h.trimStart_eq]
  exact Prod.ext hd ht

theorem FitsLine.entryLine (h : FitsLine t) :
    '\n' ∉ entryLine (d, t) ∧ entryLine (d, t) ≠ [] := by
  rw [← indented_eq_entryLine h.ne_nil]
  refine ⟨not_mem_indented h.feed, ?_⟩
  rw [indented_of_ne_nil h.ne_nil]
  intro hnil
  exact h.ne_nil (List.append_eq_nil_iff.1 hnil).2

theorem outlineOf_eq_flatMap (depth : Nat) (ss : List Statement) :
    outlineOf depth ss = ss.flatMap (Statement.outline depth) := by
  induction ss with
  | nil => rfl
  | cons s ss ih => rw [outlineOf, ih, List.flatMap_cons]

theorem statementLines_eq_flatMap (level : Nat) (ss : List Statement) :
    statementLines level ss = ss.flatMap (Statement.lines level) := by
  induction ss with
  | nil => rfl
  | cons s ss ih => rw [statementLines, ih, List.flatMap_cons]

theorem bodyLines_of_ne_nil {body : List Statement} (h : body ≠ []) :
    bodyLines n body = body.flatMap (Statement.lines n) := by
  rw [← statementLines_eq_flatMap]
  cases body with
  | nil => exact absurd rfl h
  | cons s ss => rfl

theorem Statement.IsOutline.fitsLine {s : Statement} (h : s.IsOutline)
    {e : Nat × List Char} (he : e ∈ s.outline d) : FitsLine e.2 := by
  induction h generalizing d with
  | line ht =>
      rw [List.mem_singleton.1 he]
      exact ht
  | block hh _ ih =>
      rcases List.mem_cons.1 he with rfl | he
      · exact hh.append (by decide)
      · rw [outlineOf_eq_flatMap] at he
        obtain ⟨s, hs, he⟩ := List.mem_flatMap.1 he
        exact ih s hs he

theorem Statement.IsFull.lines_eq {s : Statement} (hf : s.IsFull) (h : s.IsOutline)
    (level : Nat) :
    s.lines level = (s.outline level).map entryLine := by
  induction hf generalizing level with
  | line =>
      cases h with
      | line ht => exact congrArg (· :: []) (indented_eq_entryLine ht.ne_nil)
  | @block header body hne _ ih =>
      cases h with
      | block hh hb =>
          have hhead : indented level (header ++ ":").toList =
              entryLine (level, header.toList ++ [':']) := by
            rw [String.toList_append]
            exact indented_eq_entryLine (hh.append (u := [':']) (by decide)).ne_nil
          have hbody : body.flatMap (Statement.lines (level + 1)) =
              body.flatMap fun s => (s.outline (level + 1)).map entryLine :=
            List.flatMap_congr fun s hs => ih s hs (hb s hs) (level + 1)
          rw [Statement.lines, hhead, bodyLines_of_ne_nil hne, hbody, Statement.outline,
            List.map_cons, outlineOf_eq_flatMap, List.map_flatMap]

theorem Statement.IsFull.exists_outline_eq {s : Statement} (h : s.IsFull) (d : Nat) :
    ∃ t rest, s.outline d = (d, t) :: rest := by
  cases h with
  | line => exact ⟨_, [], rfl⟩
  | block => exact ⟨_, _, rfl⟩

/-- The lines that an outline is written in. -/
def Statement.outlineLines (s : Statement) : List (List Char) :=
  (s.withPass.outline 0).map entryLine

theorem Statement.IsOutline.mem_outlineLines {s : Statement} (h : s.IsOutline)
    {l : List Char} (hl : l ∈ s.outlineLines) : '\n' ∉ l ∧ l ≠ [] := by
  obtain ⟨⟨depth, t⟩, he, rfl⟩ := List.mem_map.1 hl
  exact (h.withPass.fitsLine he).entryLine

theorem Statement.IsOutline.splitAtFeeds_renderChars {s : Statement} (h : s.IsOutline) :
    splitAtFeeds (renderChars [s]) = s.outlineLines := by
  have hlines : s.lines 0 = s.outlineLines := by
    rw [← Statement.lines_withPass]
    exact h.isFull_withPass.lines_eq h.withPass 0
  have hdrop : s.outlineLines.rdropWhile List.isEmpty = s.outlineLines := by
    refine List.rdropWhile_eq_self_iff.2 fun hne => ?_
    simpa using (h.mem_outlineLines (List.getLast_mem hne)).2
  have hne : s.outlineLines ≠ [] := by
    obtain ⟨t, rest, ht⟩ := h.isFull_withPass.exists_outline_eq 0
    rw [Statement.outlineLines, ht]
    exact List.cons_ne_nil _ _
  have hsplit := splitAtFeeds_dropFeeds_textOf (fun m hm => (h.mem_outlineLines hm).1)
    (hdrop.symm ▸ hne)
  rw [hdrop] at hsplit
  show splitAtFeeds (dropFeeds (textOf (s.lines 0))) = s.outlineLines
  rw [hlines, hsplit]

theorem Statement.IsOutline.renderChars_ne_nil {s : Statement} (h : s.IsOutline) :
    renderChars [s] ≠ [] := by
  intro hnil
  have hsplit := h.splitAtFeeds_renderChars
  rw [hnil] at hsplit
  have hmem : [] ∈ s.outlineLines := hsplit ▸ List.mem_singleton_self []
  exact (h.mem_outlineLines hmem).2 rfl

theorem rows_renderChars {f : List Statement} (hf : ∀ s ∈ f, s.IsOutline) :
    rows (renderChars f) = List.intercalate twoEmpty (f.map Statement.outlineLines) := by
  cases f with
  | nil => rfl
  | cons s ss =>
      have hne : ∀ t ∈ s :: ss, renderChars [t] ≠ [] :=
        fun t ht => (hf t ht).renderChars_ne_nil
      have hjoin := renderChars_eq_intercalate hne
      have hnil : renderChars (s :: ss) ≠ [] := by
        rw [hjoin, List.map_cons, ← List.append_nil (renderChars [s]),
          intercalate_append_cons]
        intro h
        exact hne s List.mem_cons_self (List.append_eq_nil_iff.1 h).1
      have hitems : (s :: ss).map (fun t => splitAtFeeds (renderChars [t])) =
          (s :: ss).map Statement.outlineLines :=
        List.map_congr_left fun t ht => (hf t ht).splitAtFeeds_renderChars
      rw [rows_of_ne_nil hnil, hjoin, List.map_cons, splitAtFeeds_intercalate_gap,
        List.map_cons, List.map_map]
      exact congrArg (List.intercalate twoEmpty) hitems

/-! ## The tree of an outline -/

/-- What follows, if anything, is not as deep. -/
def EndsBelow (d : Nat) (r : List (Nat × List Char)) : Prop := ∀ e ∈ r.head?, e.1 < d

theorem EndsBelow.mono {r : List (Nat × List Char)} (h : EndsBelow d r) {e : Nat}
    (hle : d ≤ e) : EndsBelow e r :=
  fun x hx => (h x hx).trans_le hle

theorem exists_outlineOf_eq {ss : List Statement} (hne : ss ≠ []) (h : ∀ s ∈ ss, s.IsFull)
    (d : Nat) :
    ∃ t rest, outlineOf d ss = (d, t) :: rest := by
  obtain ⟨s, ss, rfl⟩ := List.exists_cons_of_ne_nil hne
  obtain ⟨t, rest, ht⟩ := (h s List.mem_cons_self).exists_outline_eq d
  exact ⟨t, rest ++ outlineOf d ss, by rw [outlineOf, ht, List.cons_append]⟩

/-- Nothing that ends a body begins like one. -/
theorem not_endsBelow_outlineOf {ss : List Statement} (hne : ss ≠ [])
    (h : ∀ s ∈ ss, s.IsFull) (r : List (Nat × List Char)) :
    ¬ EndsBelow d (outlineOf d ss ++ r) := by
  obtain ⟨t, rest, ht⟩ := exists_outlineOf_eq hne h d
  intro he
  rw [ht] at he
  exact Nat.lt_irrefl d (he (d, t) rfl)

theorem endsBelow_outlineOf_append {ss : List Statement} (h : ∀ s ∈ ss, s.IsFull)
    {r : List (Nat × List Char)} (hr : EndsBelow d r) :
    EndsBelow (d + 1) (outlineOf d ss ++ r) := by
  by_cases hne : ss = []
  · rw [hne]
    exact hr.mono (Nat.le_succ d)
  · obtain ⟨t, rest, ht⟩ := exists_outlineOf_eq hne h d
    rw [ht]
    intro e he
    rw [← Option.some_inj.1 he]
    exact Nat.lt_succ_self d

/-- A tree can be told from its outline and from where that ends, also with
something behind it. -/
def Statement.Told (s : Statement) : Prop :=
  ∀ {t : Statement}, t.IsFull → ∀ {d : Nat} {r r' : List (Nat × List Char)},
    EndsBelow (d + 1) r →
    EndsBelow (d + 1) r' → s.outline d ++ r = t.outline d ++ r' → s = t ∧ r = r'

theorem outlineOf_append_inj {ss : List Statement} (hs : ∀ s ∈ ss, s.IsFull)
    (htold : ∀ s ∈ ss, s.Told) {ts : List Statement} (ht : ∀ t ∈ ts, t.IsFull)
    {r r' : List (Nat × List Char)} (hr : EndsBelow d r) (hr' : EndsBelow d r')
    (h : outlineOf d ss ++ r = outlineOf d ts ++ r') : ss = ts ∧ r = r' := by
  induction ss generalizing ts with
  | nil =>
      cases ts with
      | nil => exact ⟨rfl, h⟩
      | cons t ts =>
          rw [outlineOf, List.nil_append] at h
          exact absurd (h ▸ hr) (not_endsBelow_outlineOf (List.cons_ne_nil t ts) ht r')
  | cons s ss ih =>
      cases ts with
      | nil =>
          rw [outlineOf, List.nil_append] at h
          exact absurd (h ▸ hr') (not_endsBelow_outlineOf (List.cons_ne_nil s ss) hs r)
      | cons t ts =>
          obtain ⟨-, hss⟩ := List.forall_mem_cons.1 hs
          obtain ⟨hst, hsst⟩ := List.forall_mem_cons.1 htold
          obtain ⟨htf, hts⟩ := List.forall_mem_cons.1 ht
          rw [outlineOf, outlineOf, List.append_assoc, List.append_assoc] at h
          obtain ⟨rfl, hrest⟩ :=
            hst htf (endsBelow_outlineOf_append hss hr)
              (endsBelow_outlineOf_append hts hr') h
          obtain ⟨rfl, rfl⟩ := ih hss hsst hts hrest
          exact ⟨rfl, rfl⟩

theorem Statement.IsFull.told {s : Statement} (h : s.IsFull) : s.Told := by
  induction h with
  | @line text =>
      intro t ht d r r' hr hr' he
      cases ht with
      | line =>
          obtain ⟨htext, rfl⟩ := List.cons.inj he
          exact ⟨by rw [String.toList_inj.1 (Prod.mk.inj htext).2], rfl⟩
      | block hne hb =>
          have hrest : r = outlineOf (d + 1) _ ++ r' := (List.cons.inj he).2
          exact absurd (hrest ▸ hr) (not_endsBelow_outlineOf hne hb r')
  | @block header body hne hb ih =>
      intro t ht d r r' hr hr' he
      cases ht with
      | line =>
          have hrest : outlineOf (d + 1) body ++ r = r' := (List.cons.inj he).2
          exact absurd (hrest ▸ hr') (not_endsBelow_outlineOf hne hb r)
      | block hne' hb' =>
          obtain ⟨hhead, hrest⟩ := List.cons.inj he
          have hheader := List.append_cancel_right (Prod.mk.inj hhead).2
          obtain ⟨rfl, rfl⟩ := outlineOf_append_inj hb ih hb' hr hr' hrest
          exact ⟨by rw [String.toList_inj.1 hheader], rfl⟩

theorem outlineOf_inj {f g : List Statement} (hf : ∀ s ∈ f, s.IsFull)
    (hg : ∀ s ∈ g, s.IsFull) (h : outlineOf d f = outlineOf d g) : f = g := by
  have hend : EndsBelow d [] := fun e he => nomatch he
  exact (outlineOf_append_inj hf (fun s hs => (hf s hs).told) hg hend hend
    (congrArg (· ++ []) h)).1

theorem map_entryOfLine_map_entryLine {es : List (Nat × List Char)}
    (h : ∀ e ∈ es, FitsLine e.2) :
    (es.map entryLine).map entryOfLine = es := by
  rw [List.map_map]
  exact (List.map_congr_left fun e he => entryOfLine_entryLine (h e he)).trans
    (List.map_id' es)

/-- The texts of an outline can be read off its lines. -/
theorem outlineOf_of_rows {f : List Statement} (hf : ∀ s ∈ f, s.IsOutline) :
    ((rows (renderChars f)).filter fun l => !l.isEmpty).map entryOfLine =
      outlineOf 0 (f.map Statement.withPass) := by
  have hfits : ∀ e ∈ outlineOf 0 (f.map Statement.withPass), FitsLine e.2 := by
    intro e he
    rw [outlineOf_eq_flatMap, List.flatMap_map] at he
    obtain ⟨s, hs, he⟩ := List.mem_flatMap.1 he
    exact (hf s hs).withPass.fitsLine he
  have hheld : ∀ ls ∈ f.map Statement.outlineLines, ∀ l ∈ ls, l ≠ [] := by
    intro ls hls l hl
    obtain ⟨s, hs, rfl⟩ := List.mem_map.1 hls
    exact ((hf s hs).mem_outlineLines hl).2
  have hflat : (f.map Statement.outlineLines).flatten =
      (outlineOf 0 (f.map Statement.withPass)).map entryLine := by
    rw [outlineOf_eq_flatMap, List.map_flatMap, List.flatMap_map, List.flatMap_def]
    rfl
  rw [rows_renderChars hf, filter_intercalate_twoEmpty hheld, hflat,
    map_entryOfLine_map_entryLine hfits]

theorem map_withPass_eq_of_renderChars_eq {f g : List Statement}
    (hf : ∀ s ∈ f, s.IsOutline) (hg : ∀ s ∈ g, s.IsOutline)
    (h : renderChars f = renderChars g) :
    f.map Statement.withPass = g.map Statement.withPass := by
  have hfull {f : List Statement} (hf : ∀ s ∈ f, s.IsOutline) :
      ∀ s ∈ f.map Statement.withPass, s.IsFull := by
    intro s hs
    obtain ⟨u, hu, rfl⟩ := List.mem_map.1 hs
    exact (hf u hu).isFull_withPass
  refine outlineOf_inj (d := 0) (hfull hf) (hfull hg) ?_
  rw [← outlineOf_of_rows hf, h, outlineOf_of_rows hg]

/-- The lines of a rendered outline are its texts in pre-order, each behind four
spaces for each level, with `pass` in every empty body, and two empty lines between
any two items.  Two outlines are rendered alike exactly when they are the same with
`pass` in every empty body. -/
theorem render_writes_outline {f : List Statement} (hf : ∀ s ∈ f, s.IsOutline) :
    rows (render f).toList = List.intercalate [[], []] (f.map fun s =>
        (s.withPass.outline 0).map fun e => List.replicate (4 * e.1) ' ' ++ e.2) ∧
      ∀ g : List Statement, (∀ s ∈ g, s.IsOutline) →
        (render f = render g ↔ f.map Statement.withPass = g.map Statement.withPass) := by
  constructor
  · rw [render, String.toList_ofList]
    exact rows_renderChars hf
  · intro g hg
    constructor
    · intro h
      exact map_withPass_eq_of_renderChars_eq hf hg (String.ofList_injective h)
    · intro h
      rw [render, ← renderChars_map_withPass, h, renderChars_map_withPass, render]

/-- A loop without a body, in a block and with a line behind it, and the same with
the body written out. -/
theorem render_writes_outline_pass :
    let f : List Statement :=
      [.block "if x" [.block "while y" [], .line "z()"], .line "w"]
    let g : List Statement :=
      [.block "if x" [.block "while y" [.line "pass"], .line "z()"], .line "w"]
    (∀ s ∈ f, s.IsOutline) ∧ (∀ s ∈ g, s.IsOutline) ∧ render f = render g ∧
      rows (render f).toList =
        ["if x:".toList, "    while y:".toList, "        pass".toList, "    z()".toList,
          [], [], "w".toList] := by
  intro f g
  have hline (text : String) (ht : FitsLine text.toList) : ∀ s ∈ [Statement.line text],
      s.IsOutline :=
    List.forall_mem_singleton.2 (.line ht)
  have hz := hline "z()" (by decide +kernel)
  have hw := hline "w" (by decide +kernel)
  have hx : FitsLine "if x".toList := by decide +kernel
  have hy : FitsLine "while y".toList := by decide +kernel
  have hf : ∀ s ∈ f, s.IsOutline :=
    List.forall_mem_cons.2 ⟨.block hx (List.forall_mem_cons.2 ⟨.block hy nofun, hz⟩), hw⟩
  have hg : ∀ s ∈ g, s.IsOutline :=
    List.forall_mem_cons.2
      ⟨.block hx (List.forall_mem_cons.2 ⟨.block hy (hline _ fitsLine_pass), hz⟩), hw⟩
  obtain ⟨hrows, hsame⟩ := render_writes_outline hf
  exact ⟨hf, hg, (hsame g hg).2 rfl, hrows⟩

end NotebookService.Code
