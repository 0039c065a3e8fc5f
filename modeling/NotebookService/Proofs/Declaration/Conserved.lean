/-
# `NotebookService.Proofs.Declaration.Conserved` — what becomes of the text of a cell

A source is blank lines, comment lines, a triple-quoted block or none, and then the
body.  `Layout` writes these parts down with the text between them, and every source has
one that the splitter follows.  The body is kept as it is.  What is left of the lines in
front of it is their ink, the characters that are not blank, without the markers of
comments and the delimiters of the block.

One more thing is left out: the text that stands behind the closing delimiter, on its
line.  It belongs neither to the declaration nor to the body, so nothing is lost exactly
if that text is blank (`text_conserved_iff`).
-/
import NotebookService.Proofs.Declaration.Forms

namespace NotebookService.Declaration

open NotebookService.Text

variable {s t : List Char} {l : List Char} {ls : List (List Char)}

/-! ## Ink -/

/-- The characters of a text that are not blank. -/
def ink (s : List Char) : List Char := s.filter fun c => !isBlank c

def inkOf (ls : List (List Char)) : List Char := ls.flatMap ink

@[simp] theorem ink_append (s t : List Char) :
    ink (s ++ t) = ink s ++ ink t := List.filter_append s t

theorem ink_eq_nil_iff : ink s = [] ↔ allBlank s = true := by
  simp [ink, allBlank_iff]

@[simp] theorem inkOf_nil : inkOf [] = [] := rfl

@[simp] theorem inkOf_cons (l : List Char) (ls : List (List Char)) :
    inkOf (l :: ls) = ink l ++ inkOf ls := rfl

@[simp] theorem inkOf_append (ls ms : List (List Char)) :
    inkOf (ls ++ ms) = inkOf ls ++ inkOf ms := List.flatMap_append

@[simp] theorem ink_trimStart (s : List Char) : ink (trimStart s) = ink s := by
  have hmargin : ink (margin s) = [] := ink_eq_nil_iff.2 List.all_takeWhile
  have hsplit := congrArg ink (margin_append_trimStart s)
  rwa [ink_append, hmargin, List.nil_append] at hsplit

@[simp] theorem ink_trimEnd (s : List Char) : ink (trimEnd s) = ink s := by
  obtain ⟨t, hs, ht⟩ := exists_trimEnd_append s
  have hsplit := congrArg ink hs
  rwa [ink_append, ink_eq_nil_iff.2 ht, List.append_nil, eq_comm] at hsplit

@[simp] theorem ink_trim (s : List Char) : ink (trim s) = ink s := by
  rw [trim, ink_trimEnd, ink_trimStart]

@[simp] theorem inkOf_unlessBlank (l : List Char) : inkOf (unlessBlank l) = ink l := by
  unfold unlessBlank
  split
  · rename_i h
    exact (ink_eq_nil_iff.2 h).symm
  · exact List.append_nil _

theorem ink_cut {n : Nat} (h : n ≤ indentation l) : ink (cut n l) = ink l := by
  rw [← ink_trimStart, trimStart_cut h, ink_trimStart]

theorem inkOf_map_cut {n : Nat} (h : ∀ l ∈ ls, allBlank l = false → n ≤ indentation l) :
    inkOf ((ls.filter fun l => !allBlank l).map (cut n)) = inkOf ls := by
  induction ls with
  | nil => rfl
  | cons l ls ih =>
      obtain ⟨hl, hls⟩ := List.forall_mem_cons.1 h
      cases hb : allBlank l with
      | true =>
          rw [List.filter_cons_of_neg (by simp [hb]), ih hls, inkOf_cons,
            ink_eq_nil_iff.2 hb, List.nil_append]
      | false =>
          rw [List.filter_cons_of_pos (by simp [hb]), List.map_cons, inkOf_cons,
            inkOf_cons, ih hls, ink_cut (hl hb)]

theorem inkOf_dedent (ls : List (List Char)) : inkOf (dedent ls) = inkOf ls := by
  refine inkOf_map_cut ?_
  intro l hl hb
  have hm : l ∈ ls.filter fun l => !allBlank l := List.mem_filter.2 ⟨hl, by simp [hb]⟩
  exact least_le (List.mem_map_of_mem hm)

/-- What a comment line says, given without the blanks at its ends. -/
def remark (l : List Char) : List Char := l.dropWhile (· = '#')

theorem ink_commentText (l : List Char) : ink (commentText l) = ink (remark l) := by
  unfold commentText remark
  split
  · rename_i text h
    rw [h, ink_trimEnd]
    rfl
  · rw [ink_trimEnd]

/-! ## Delimiters -/

theorem not_infix_of_length_lt (h : t.length < s.length) : ¬ s <:+: t :=
  fun hi => Nat.not_lt.2 hi.length_le h

/-- The text up to the delimiter holds none, not even with the first two of the
delimiter's quotes. -/
theorem Triple.eq_of_split? {t : Triple} {s x r : List Char}
    (h : t.split? s = some (x, r)) :
    s = x ++ (t.delimiter ++ r) ∧ ¬ t.delimiter <:+: x ++ [t.mark, t.mark] := by
  induction s generalizing x with
  | nil => cases h
  | cons a s ih =>
      rcases s with _ | ⟨b, _ | ⟨c, rest⟩⟩
      · cases h
      · cases h
      · rw [Triple.split?] at h
        split at h
        · rename_i hm
          cases h
          obtain ⟨rfl, rfl, rfl⟩ := hm
          exact ⟨rfl, not_infix_of_length_lt (by simp [Triple.delimiter])⟩
        · rename_i hm
          obtain ⟨⟨y, r'⟩, hy, he⟩ := Option.map_eq_some_iff.1 h
          cases he
          obtain ⟨hs, hn⟩ := ih hy
          refine ⟨by rw [hs, List.cons_append], ?_⟩
          rw [List.cons_append, List.infix_cons_iff, not_or]
          refine ⟨?_, hn⟩
          intro hp
          have hlonger : a :: (y ++ [t.mark, t.mark]) <+: a :: b :: c :: rest := by
            rw [hs]
            exact ⟨t.mark :: r, by simp [Triple.delimiter]⟩
          exact hm (Triple.delimiter_prefix_iff.1 (hp.trans hlonger))

theorem Triple.split?_eq_none_iff {t : Triple} {s : List Char} :
    t.split? s = none ↔ ¬ t.delimiter <:+: s := by
  refine ⟨?_, Triple.split?_eq_none⟩
  intro h hi
  induction s with
  | nil => exact not_infix_of_length_lt (by simp [Triple.delimiter]) hi
  | cons a s ih =>
      rcases s with _ | ⟨b, _ | ⟨c, rest⟩⟩
      · exact not_infix_of_length_lt (by simp [Triple.delimiter]) hi
      · exact not_infix_of_length_lt (by simp [Triple.delimiter]) hi
      · rw [Triple.split?] at h
        split at h
        · cases h
        · rename_i hm
          rcases List.infix_cons_iff.1 hi with hp | hi
          · exact hm (Triple.delimiter_prefix_iff.1 hp)
          · exact ih (Option.map_eq_none_iff.1 h) hi

theorem eq_of_openingTriple? {t : Triple} {s rest : List Char}
    (h : openingTriple? s = some (t, rest)) :
    s = t.delimiter ++ rest := by
  unfold openingTriple? at h
  split at h
  · split at h
    · rename_i hm
      cases h
      obtain ⟨rfl, rfl, rfl⟩ := hm
      rfl
    · split at h
      · rename_i hm
        cases h
        obtain ⟨rfl, rfl, rfl⟩ := hm
        rfl
      · cases h
  · cases h

/-- Blanks at the end do not make a delimiter. -/
theorem Triple.not_infix_append {t : Triple} {s u : List Char} (h : ¬ t.delimiter <:+: s)
    (hu : allBlank u = true) :
    ¬ t.delimiter <:+: s ++ u := by
  rintro ⟨a, b, hab⟩
  have hsplit : a ++ t.delimiter ++ b = (a ++ [t.mark, t.mark]) ++ t.mark :: b := by
    simp [Triple.delimiter]
  have htrim : trimEnd s = (a ++ [t.mark, t.mark]) ++ t.mark :: trimEnd b := by
    rw [← trimEnd_append_of_allBlank hu, ← hab, hsplit,
      trimEnd_append_cons_of_not t.isBlank_mark]
  have hin : t.delimiter <:+: trimEnd s :=
    ⟨a, trimEnd b, by rw [htrim]; simp [Triple.delimiter]⟩
  have hend := trimEnd_prefix s
  exact h (hin.trans hend.isInfix)

/-! ## The parts of a source -/

/-- A triple-quoted block. -/
structure Block where
  /-- The blanks in front of the opening delimiter. -/
  margin : List Char
  triple : Triple
  /-- The text behind the opening delimiter, on its line. -/
  first : List Char
  /-- The text on the lines below. -/
  more : List (List Char)
  /-- The text behind the closing delimiter, on its line; none if the
  block is not closed. -/
  behind : Option (List Char)

/-- The lines with something more behind the last of them. -/
def closeLast (tail : List Char) : List (List Char) → List (List Char)
  | [] => []
  | [l] => [l ++ tail]
  | l :: m :: ls => l :: closeLast tail (m :: ls)

namespace Block

/-- The closing delimiter and what is behind it. -/
def closing (t : Triple) (behind : Option (List Char)) : List Char :=
  behind.elim [] (t.delimiter ++ ·)

def lines (b : Block) : List (List Char) :=
  closeLast (closing b.triple b.behind)
    ((b.margin ++ (b.triple.delimiter ++ b.first)) :: b.more)

/-- The text between the delimiters. -/
def inside (b : Block) : List (List Char) := b.first :: b.more

/-- The closing delimiter is the first behind the opening one. -/
structure IsValid (b : Block) : Prop where
  margin_blank : allBlank b.margin = true
  inside_open : ∀ x ∈ b.inside, ¬ b.triple.delimiter <:+: x
  closing_first : b.behind.isSome = true → ∀ x ∈ b.inside.getLast?,
    ¬ b.triple.delimiter <:+: x ++ [b.triple.mark, b.triple.mark]

end Block

/-- The parts of a source, line by line. -/
structure Layout where
  blanks : List (List Char)
  comments : List (List Char)
  block : Option Block
  body : List (List Char)

namespace Layout

def lines (L : Layout) : List (List Char) :=
  L.blanks ++ (L.comments ++ (L.block.elim [] Block.lines ++ L.body))

structure IsValid (L : Layout) : Prop where
  blank : ∀ l ∈ L.blanks, allBlank l = true
  comment : ∀ l ∈ L.comments, (trim l).head? = some '#'
  block : ∀ b ∈ L.block, b.IsValid
  open_end : ∀ b ∈ L.block, b.behind = none → L.body = []

/-- What the declaration says: behind the markers of comments and between the
delimiters of the block. -/
def declared (L : Layout) : List (List Char) :=
  L.comments.map (fun l => remark (trim l)) ++ L.block.elim [] Block.inside

/-- The text behind the closing delimiter of the block. -/
def behind (L : Layout) : List Char := (L.block.bind Block.behind).getD []

end Layout

/-! ## Following the splitter -/

theorem exists_of_splitBlock (t : Triple) (ls : List (List Char)) :
    ∃ more behind, (∀ first, first :: ls =
      closeLast (Block.closing t behind) (first :: more) ++ (splitBlock t ls).2) ∧
      inkOf (splitBlock t ls).1 = inkOf more ∧ (∀ x ∈ more, ¬ t.delimiter <:+: x) ∧
      (behind.isSome = true → more ≠ [] ∧
        ∀ x ∈ more.getLast?, ¬ t.delimiter <:+: x ++ [t.mark, t.mark]) ∧
      (behind = none → (splitBlock t ls).2 = []) := by
  induction ls with
  | nil =>
      exact ⟨[], none, fun first => by
          simp [closeLast, Block.closing, splitBlock],
            rfl, by simp, by simp, fun _ => rfl⟩
  | cons l ls ih =>
      cases hs : t.split? l with
      | some p =>
          obtain ⟨x, r⟩ := p
          obtain ⟨rfl, hfirst⟩ := Triple.eq_of_split? hs
          have hsplit : splitBlock t ((x ++ (t.delimiter ++ r)) :: ls) =
              (unlessBlank (trimEnd x), ls) := by
            rw [splitBlock, hs]
          have hopen : ¬ t.delimiter <:+: x :=
            fun hi => hfirst (hi.trans (List.prefix_append x _).isInfix)
          refine ⟨[x], some r, ?_, ?_, by simpa using hopen, ?_, by simp⟩
          · intro first
            rw [hsplit]
            rfl
          · rw [hsplit]
            simp
          · intro _
            exact ⟨List.cons_ne_nil x [], by simpa using hfirst⟩
      | none =>
          obtain ⟨more, behind, hlines, hink, hopen, hclosed, hend⟩ := ih
          have hsplit : splitBlock t (l :: ls) =
              (trimEnd l :: (splitBlock t ls).1, (splitBlock t ls).2) := by
            rw [splitBlock, hs]
          refine ⟨l :: more, behind, ?_, ?_, ?_, ?_, ?_⟩
          · intro first
            rw [hsplit]
            exact congrArg (first :: ·) (hlines l)
          · rw [hsplit, inkOf_cons, ink_trimEnd, hink, inkOf_cons]
          · exact List.forall_mem_cons.2 ⟨Triple.split?_eq_none_iff.1 hs, hopen⟩
          · intro hb
            obtain ⟨hne, hlast⟩ := hclosed hb
            obtain ⟨m, ms, rfl⟩ := List.exists_cons_of_ne_nil hne
            exact ⟨List.cons_ne_nil l _, by simpa [List.getLast?_cons_cons] using hlast⟩
          · rw [hsplit]
            exact hend

theorem exists_of_opening {t : Triple} {rest : List Char}
    (h : openingTriple? (trim l) = some (t, rest)) (ls : List (List Char)) :
    ∃ b : Block, b.IsValid ∧ l :: ls = b.lines ++ (splitDeclaring (l :: ls)).2 ∧
      inkOf (splitDeclaring (l :: ls)).1 = inkOf b.inside ∧
      (b.behind = none → (splitDeclaring (l :: ls)).2 = []) := by
  obtain ⟨u, hu, hblank⟩ := exists_trimEnd_append (trimStart l)
  have hl : l = margin l ++ (t.delimiter ++ (rest ++ u)) := by
    have hstart : trimStart l = trim l ++ u := hu
    rw [eq_of_openingTriple? h, List.append_assoc] at hstart
    rw [← hstart, margin_append_trimStart]
  have hmargin : allBlank (margin l) = true := List.all_takeWhile
  cases hs : t.split? rest with
  | some p =>
      obtain ⟨x, r⟩ := p
      obtain ⟨rfl, hfirst⟩ := Triple.eq_of_split? hs
      have hsplit : splitDeclaring (l :: ls) = (unlessBlank (trim x), ls) := by
        rw [splitDeclaring, h]
        simp only [hs]
      have hopen : ¬ t.delimiter <:+: x :=
        fun hi => hfirst (hi.trans (List.prefix_append x _).isInfix)
      refine ⟨⟨margin l, t, x, [], some (r ++ u)⟩, ⟨hmargin, ?_, ?_⟩, ?_, ?_, by simp⟩
      · simpa [Block.inside] using hopen
      · simpa [Block.inside] using hfirst
      · rw [hsplit]
        refine congrArg (· :: ls) (hl.trans ?_)
        simp [Block.closing]
      · rw [hsplit]
        simp [Block.inside]
  | none =>
      obtain ⟨more, behind, hlines, hink, hopen, hclosed, hend⟩ :=
        exists_of_splitBlock t ls
      have hsplit : splitDeclaring (l :: ls) =
          (unlessBlank (trim rest) ++ (splitBlock t ls).1, (splitBlock t ls).2) := by
        rw [splitDeclaring, h]
        simp only [hs]
      have hrest : ¬ t.delimiter <:+: rest ++ u :=
        Triple.not_infix_append (Triple.split?_eq_none_iff.1 hs) hblank
      refine ⟨⟨margin l, t, rest ++ u, more, behind⟩, ⟨hmargin, ?_, ?_⟩, ?_, ?_, ?_⟩
      · exact List.forall_mem_cons.2 ⟨hrest, hopen⟩
      · intro hb
        obtain ⟨hne, hlast⟩ := hclosed hb
        obtain ⟨m, ms, rfl⟩ := List.exists_cons_of_ne_nil hne
        simpa [Block.inside, List.getLast?_cons_cons] using hlast
      · rw [hsplit]
        show l :: ls = closeLast _ ((margin l ++ (t.delimiter ++ (rest ++ u))) :: more) ++
          _
        rw [← hl]
        exact hlines l
      · rw [hsplit]
        simp [Block.inside, hink, ink_eq_nil_iff.2 hblank]
      · rw [hsplit]
        exact hend

theorem exists_of_splitDeclaring (ls : List (List Char)) :
    ∃ L : Layout, L.blanks = [] ∧ L.IsValid ∧ ls = L.lines ∧
      (splitDeclaring ls).2 = L.body ∧
      inkOf (splitDeclaring ls).1 = inkOf L.declared := by
  induction ls with
  | nil =>
      exact ⟨⟨[], [], none, []⟩, rfl, ⟨by simp, by simp, by simp, by simp⟩, rfl, rfl, rfl⟩
  | cons l ls ih =>
      cases ho : openingTriple? (trim l) with
      | some p =>
          obtain ⟨b, hb, hlines, hink, hend⟩ := exists_of_opening ho ls
          refine ⟨⟨[], [], some b, (splitDeclaring (l :: ls)).2⟩, rfl,
            ⟨by simp, by simp, ?_, ?_⟩, hlines, rfl, hink⟩
          · rintro _ ⟨⟩
            exact hb
          · rintro _ ⟨⟩
            exact hend
      | none =>
          by_cases hc : (trim l).head? = some '#'
          · obtain ⟨L, hblanks, hL, hlines, hbody, hink⟩ := ih
            have hsplit : splitDeclaring (l :: ls) =
                (commentText (trim l) :: (splitDeclaring ls).1,
                  (splitDeclaring ls).2) := by
              rw [splitDeclaring, ho]
              exact if_pos hc
            refine ⟨{ L with comments := l :: L.comments }, hblanks,
              ⟨hL.blank, ?_, hL.block, hL.open_end⟩, ?_, ?_, ?_⟩
            · exact List.forall_mem_cons.2 ⟨hc, hL.comment⟩
            · rw [hlines, Layout.lines, Layout.lines, hblanks]
              rfl
            · rw [hsplit]
              exact hbody
            · rw [hsplit, inkOf_cons, ink_commentText, hink]
              simp [Layout.declared]
          · have hsplit : splitDeclaring (l :: ls) = ([], l :: ls) := by
              rw [splitDeclaring, ho]
              exact if_neg hc
            refine ⟨⟨[], [], none, l :: ls⟩, rfl,
              ⟨by simp, by simp, by simp, by simp⟩, rfl, ?_, ?_⟩
            · rw [hsplit]
            · rw [hsplit]
              rfl

theorem eq_of_split? {source : String} {d : Declaration} (h : split? source = some d) :
    d.lines = (dedent (splitDeclaring
      ((Text.lines source.toList).dropWhile allBlank)).1).map String.ofList ∧
      d.body = (splitDeclaring ((Text.lines source.toList).dropWhile allBlank)).2.map
        String.ofList := by
  rw [split?] at h
  dsimp only at h
  split at h
  · cases h
  · cases h
    exact ⟨rfl, rfl⟩

/-- Every source is made of these parts, the body is the lines behind them as they are,
and the declaration has the ink of what the comments and the block say.  So all ink but
that of markers and delimiters is in the declaration or the body, in its order, exactly
if nothing but blanks stands behind a closing delimiter. -/
theorem text_conserved_iff (source : String) (d : Declaration)
    (h : split? source = some d) :
    ∃ L : Layout, L.IsValid ∧ Text.lines source.toList = L.lines ∧
      d.body = L.body.map String.ofList ∧
      inkOf (d.lines.map String.toList) = inkOf L.declared ∧
      (inkOf (d.lines.map String.toList) ++ inkOf (d.body.map String.toList) =
        inkOf L.declared ++ (ink L.behind ++ inkOf L.body) ↔
          allBlank L.behind = true) := by
  have htoList (ls : List (List Char)) : (ls.map String.ofList).map String.toList =
      ls := by simp
  obtain ⟨hlines, hbody⟩ := eq_of_split? h
  obtain ⟨L, hblanks, hL, hparts, hrest, hink⟩ :=
    exists_of_splitDeclaring ((Text.lines source.toList).dropWhile allBlank)
  have hdeclared : inkOf (d.lines.map String.toList) = inkOf L.declared := by
    rw [hlines, htoList, inkOf_dedent, hink]
  have hbody : d.body = L.body.map String.ofList := by rw [hbody, hrest]
  refine ⟨{ L with blanks := (Text.lines source.toList).takeWhile allBlank }, ?_, ?_,
    hbody, hdeclared, ?_⟩
  · exact ⟨fun l hl => List.mem_takeWhile_imp hl, hL.comment, hL.block, hL.open_end⟩
  · have hall := List.takeWhile_append_dropWhile (p := allBlank)
        (l := Text.lines source.toList)
    rw [hparts, Layout.lines, hblanks, List.nil_append] at hall
    exact hall.symm
  · rw [hdeclared, hbody, htoList]
    show inkOf L.declared ++ inkOf L.body =
      inkOf L.declared ++ (ink L.behind ++ inkOf L.body) ↔ _
    rw [List.append_cancel_left_eq, List.self_eq_append_left, ink_eq_nil_iff]
    rfl

theorem text_conserved_iff_block :
    ∃ L : Layout, L.IsValid ∧ Text.lines "\n# a\n  '''b\n  c'''\nx # y".toList = L.lines ∧
      L.body = ["x # y".toList] ∧
      inkOf L.declared = ['a', 'b', 'c'] := by
  have hsplit : split? "\n# a\n  '''b\n  c'''\nx # y" =
      some ⟨["a", "b", "  c"], ["x # y"]⟩ := by decide +kernel
  obtain ⟨L, hL, hlines, hbody, hink, -⟩ := text_conserved_iff _ _ hsplit
  refine ⟨L, hL, hlines, ?_, hink.symm⟩
  have htoList := congrArg (List.map String.toList) hbody
  simpa [Function.comp_def] using htoList.symm

/-- What stands behind the closing delimiter is nowhere afterwards. -/
theorem text_behind_block_lost :
    ¬ ∀ (source : String) (d : Declaration), split? source = some d →
      ∀ c ∈ source.toList, isBlank c = false → c ∉ ['#', '"', '\''] →
      ∃ l ∈ d.lines ++ d.body, c ∈ l.toList := by
  intro hall
  have hsplit : split? "'''a''' b" = some ⟨["a"], []⟩ := by decide +kernel
  obtain ⟨l, hl, hc⟩ := hall _ _ hsplit 'b' (by decide) rfl (by decide)
  rw [List.append_nil, List.mem_singleton] at hl
  rw [hl] at hc
  exact absurd hc (by decide)

end NotebookService.Declaration
