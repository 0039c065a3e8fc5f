/-
# `NotebookService.Proofs.Signature.Comments` — comments and the function of a source

A comment is met by three rules.  The scan passes over a line that begins with one; the
reader of a parameter list cuts it off; and on any other line it is not known at all,
where triple quotes in it count like those of the code (`Plain.openAfter_remark`).  The
last is why a comment can hide the functions below it.  Apart from that, and from places
where the reader takes a string to be open, a comment changes nothing but line numbers.
-/
import NotebookService.Proofs.Signature.Edited
import NotebookService.Proofs.Text.Indent

namespace NotebookService.Signature

open NotebookService.Text

variable {ls a b : List (List Char)} {l s t u w x rest : List Char} {n : Nesting}
  {c mark : Char} {d : Nat × Nat}

/-! ## Places without an open string -/

namespace Place

variable {p : Place}

/-- No string is open where the reader stands. -/
def Closed (p : Place) : Prop := ∀ n ∈ p.nesting?, n.quote = none

instance (p : Place) : Decidable p.Closed :=
  inferInstanceAs (Decidable (∀ n ∈ p.nesting?, n.quote = none))

theorem Closed.step (h : p.Closed) (hc : Nesting.isQuote c = false) :
    (p.step c).Closed := by
  cases p with
  | inside n =>
      obtain ⟨depth, quote⟩ := n
      obtain rfl : quote = none := h _ rfl
      rw [Place.step, insideStep, step_of_not_isQuote hc]
      split
      · exact h
      · split
        · intro m hm
          cases hm
        · intro m hm
          cases hm
          rfl
  | comment n =>
      rw [Place.step]
      split
      · exact h
      · exact h
  | behind => exact h

theorem Closed.after (h : p.Closed) (hs : Unquoted s) : (p.after s).Closed := by
  induction s generalizing p with
  | nil => exact h
  | cons c s ih =>
      obtain ⟨hc, hs⟩ := List.forall_mem_cons.1 hs
      exact ih (h.step hc) hs

/-- A line end changes nothing about strings. -/
theorem eq_behind_or_idle (hq : ∀ n ∈ p.nesting?, Quoted n) (h : (p.step '\n').Closed) :
    p = behind ∨ ∃ n, p.Idle n := by
  cases p with
  | inside n =>
      refine .inr ⟨n, rfl, ?_⟩
      rw [step_inside (by decide) (by decide), (hq n rfl).step_of_isBlank rfl] at h
      exact h n rfl
  | comment n => exact .inr ⟨n, rfl, h n rfl⟩
  | behind => exact .inl rfl

end Place

/-- No string of the function's parameter list is open in front of line `i`. -/
def NoStringOpen (ls : List (List Char)) (i : Nat) : Prop :=
  ∀ p ∈ listPlace? ls i, p.Closed

instance (ls : List (List Char)) (i : Nat) : Decidable (NoStringOpen ls i) :=
  inferInstanceAs (Decidable (∀ p ∈ listPlace? ls i, p.Closed))

/-! ## Comments in a parameter list -/

/-- A signature holds the names in its list and nothing else of it. -/
theorem signature?_congr {isAsync : Bool} {header header' : List Char × List Char}
    {following following' : List (List Char)} (hname : header'.1 = header.1)
    (h : ((Place.inside .top).read? (unlines (header'.2 :: following'))).map
        parameterNames =
      ((Place.inside .top).read? (unlines (header.2 :: following))).map
        parameterNames) :
    signature? isAsync d following' header' = signature? isAsync d following header := by
  have hfactor (following : List (List Char)) (header : List Char × List Char) :
      signature? isAsync d following header =
        (((Place.inside .top).read? (unlines (header.2 :: following))).map
          parameterNames).map
            fun names => ⟨String.ofList header.1, names, isAsync, d.1, d.2⟩ := by
    rw [signature?, Option.map_map]
    rfl
  rw [hfactor, hfactor, h, hname]

/-- The names in a list are the same with a comment at the end of a line, unless a
string is open there. -/
theorem map_parameterNames_remark
    (hclosed : (((Place.inside .top).after s).step '\n').Closed) (hw : allBlank w = true)
    (ht : '\n' ∉ t) (hrest : ∀ c ∈ rest.head?, c = '\n')
    (hnames : ∀ text ∈ (Place.inside .top).read? (s ++ rest),
      Unspaced (parameterNames text)) :
    ((Place.inside .top).read? (s ++ (w ++ '#' :: t ++ rest))).map parameterNames =
      ((Place.inside .top).read? (s ++ rest)).map parameterNames := by
  have htop : ∀ n ∈ (Place.inside .top).nesting?, Quoted n := fun n hn => by
    cases hn
    exact quoted_of_quote_eq_none rfl
  have hq := Place.quoted_after htop s
  rcases Place.eq_behind_or_idle hq hclosed with hbehind | ⟨n, hidle⟩
  · have hstep : ((Place.inside .top).after s).step '\n' = .behind := by rw [hbehind]; rfl
    rw [read?_of_step_feed hstep, read?_of_step_feed hstep]
  · rw [Place.read?_append _ s rest] at hnames ⊢
    rw [Place.read?_append _ s]
    exact parameterNames_remark hidle hw ht hrest hnames

theorem Chosen.unspaced {found : Bool × List Char} {header : List Char × List Char}
    (h : Chosen ls d found header) (hnames : ∀ sig ∈ ofLines? ls, Unspaced sig.params) :
    ∀ text ∈ (Place.inside .top).read? (unlines (header.2 :: ls.drop (d.1 + 1))),
      Unspaced (parameterNames text) := by
  intro text htext
  refine hnames ⟨String.ofList header.1, parameterNames text, found.1, d.1, d.2⟩ ?_
  rw [ofLines?_eq, h.outermost, Option.bind_some, readAt?, h.definition, Option.bind_some,
    h.header, Option.bind_some, signature?, Option.mem_def.1 htext]
  rfl

/-! ## Comments on lines of their own -/

theorem silent_comment (hw : allBlank w = true) (t : List Char) :
    Silent [w ++ '#' :: t] := by
  have htrim : trimStart (w ++ '#' :: t) = '#' :: t := by
    rw [trimStart_append_of_allBlank hw, trimStart_cons_of_not rfl]
  constructor
  · simp [openBehind, openAfter, htrim]
  · intro number
    have hdef : definition? ('#' :: t) = none := rfl
    simp [definitionLines, startsDefinition, htrim, hdef]

/-- A comment on a line of its own changes nothing but line numbers. -/
theorem ofLines?_comment (ha : openBehind none a = none)
    (hlist : NoStringOpen (a ++ b) a.length)
    (hnames : ∀ sig ∈ ofLines? (a ++ b), Unspaced sig.params) (hw : allBlank w = true)
    (ht : '\n' ∉ t) :
    ofLines? (a ++ (w ++ '#' :: t) :: b) =
      (ofLines? (a ++ b)).map (pushedDown a.length 1) := by
  refine ofLines?_insert ha (silent_comment hw t) b fun d found header hchosen hd => ?_
  have hclosed := hlist _ (hchosen.listPlace?_eq hd)
  rw [List.take_left, Place.after_append] at hclosed
  have hunspaced := hchosen.unspaced hnames
  rw [List.drop_append_of_le_length hd, unlines_append] at hunspaced
  refine signature?_congr rfl ?_
  have hw' : allBlank ('\n' :: w) = true := by rw [allBlank_cons, hw]; rfl
  have hnames := map_parameterNames_remark hclosed hw' ht
    (fun c hc => head?_flatMap_feed hc) hunspaced
  rw [unlines_append, unlines_append]
  simpa using hnames

/-! ## Comments behind code -/

/-- A comment as it is put behind a line. -/
def remark (t : List Char) : List Char := ' ' :: ' ' :: '#' :: ' ' :: t

theorem trimStart_append_remark (s t : List Char) :
    trimStart (s ++ remark t) = if allBlank s = true then '#' :: ' ' :: t
      else trimStart s ++ remark t := by
  split
  · rename_i hs
    rw [trimStart_append_of_allBlank hs]
    rfl
  · rename_i hs
    exact trimStart_append_of_not hs _

theorem exists_append_of_defines {isAsync : Bool} (h : Defines isAsync w []) :
    ∃ v, w = v ++ ['f'] ++ [' '] := by
  rcases h with ⟨-, rfl⟩ | ⟨-, gap, -, -, rfl⟩
  · exact ⟨"de".toList, rfl⟩
  · exact ⟨"async".toList ++ gap ++ "de".toList, by simp⟩

theorem exists_of_remark_eq_append (h : remark t = s ++ rest) :
    s = [] ∨ s = [' '] ∨ s = [' ', ' '] ∨ '#' ∈ s := by
  match s, h with
  | [], _ => exact .inl rfl
  | [_], h =>
      cases h
      exact .inr (.inl rfl)
  | [_, _], h =>
      cases h
      exact .inr (.inr (.inl rfl))
  | a :: b :: c :: s, h =>
      have hhash : '#' = c := (List.cons.inj (List.cons.inj (List.cons.inj h).2).2).1
      exact .inr (.inr (.inr (by simp [← hhash])))

/-- A definition begins in front of the comment, or not at all, unless only its
last space is missing. -/
theorem definition?_append_remark (h : ∀ isAsync, ¬ Defines isAsync (u ++ [' ']) [])
    (t : List Char) :
    definition? (u ++ remark t) = (definition? u).map fun found =>
      (found.1, found.2 ++ remark t) := by
  refine Option.ext fun ⟨isAsync, rest⟩ => ?_
  rw [definition?_eq_some_iff, Option.map_eq_some_iff]
  constructor
  · intro hdef
    obtain ⟨w, hw, htext⟩ := defines_iff.1 hdef
    rcases List.append_eq_append_iff.1 htext with ⟨r, rfl, hr⟩ | ⟨r, rfl, rfl⟩
    · rcases exists_of_remark_eq_append hr with rfl | rfl | rfl | hhash
      · rw [List.nil_append] at hr
        rw [List.append_nil] at hw
        exact ⟨(isAsync, []), definition?_eq_some_iff.2 hw, by rw [hr]; rfl⟩
      · exact absurd hw (h isAsync)
      · -- Two spaces do not end a word.
        obtain ⟨v, hv⟩ := exists_append_of_defines hw
        have hspaces : u ++ [' '] ++ [' '] = v ++ ['f'] ++ [' '] := by
          rw [← hv, List.append_assoc]
          rfl
        have hlast : [' '] = ['f'] :=
          List.append_inj_right' ((List.append_left_inj _).1 hspaces) rfl
        cases hlast
      · cases isWordChar_or_isBlank_of_defines hw (List.mem_append_right u hhash)
    · exact ⟨(isAsync, r), definition?_eq_some_iff.2 (defines_iff.2 ⟨w, hw, rfl⟩), rfl⟩
  · rintro ⟨⟨isAsync', r⟩, hr, heq⟩
    cases heq
    obtain ⟨w, hw, rfl⟩ := defines_iff.1 (definition?_eq_some_iff.1 hr)
    exact defines_iff.2 ⟨w, hw, List.append_assoc _ _ _⟩

theorem after?_paren (c : Char) (s : List Char) :
    after? "(" (c :: s) = if c = '(' then some s else none := by
  have hword : "(".toList = ['('] := rfl
  have hlength : "(".length = 1 := rfl
  rw [after?, hword, hlength]
  by_cases hc : c = '('
  · simp [hc]
  · simp [hc, Ne.symm hc]

theorem header?_append_remark (s t : List Char) :
    header? (s ++ remark t) = (header? s).map fun header =>
      (header.1, header.2 ++ remark t) := by
  have hword : isWordChar ' ' = false := by decide
  have hhash : isWordChar '#' = false := by decide
  unfold header?
  dsimp only
  rw [trimStart_append_remark]
  split
  · rename_i hs
    rw [trimStart_eq_nil.2 hs]
    simp [hhash]
  · generalize trimStart s = u
    have hname : (u ++ remark t).takeWhile isWordChar = u.takeWhile isWordChar :=
      takeWhile_append_cons_of_not hword u _
    have hbehind : (u ++ remark t).dropWhile isWordChar =
        u.dropWhile isWordChar ++ remark t :=
      dropWhile_append_cons_of_not hword u _
    rw [hname, hbehind, trimStart_append_remark]
    by_cases hb : allBlank (u.dropWhile isWordChar) = true
    · rw [if_pos hb, trimStart_eq_nil.2 hb]
      simp [after?]
    · rw [if_neg hb]
      obtain ⟨c, r, hr⟩ := List.exists_cons_of_ne_nil (mt trimStart_eq_nil.1 hb)
      rw [hr, List.cons_append, after?_paren, after?_paren]
      split
      · rfl
      · split <;> rfl

theorem countTriple_cons_of_ne (h : c ≠ mark) (s : List Char) :
    countTriple mark (c :: s) = countTriple mark s := by
  match s with
  | [] => rfl
  | [_] => rfl
  | _ :: _ :: _ => rw [countTriple, if_neg fun hc => h hc.1]

theorem countTriple_append (h : mark ∉ s) (t : List Char) :
    countTriple mark (s ++ t) = countTriple mark t := by
  induction s with
  | nil => rfl
  | cons c s ih =>
      obtain ⟨hc, hs⟩ := not_or.1 (mt List.mem_cons.2 h)
      rw [List.cons_append, countTriple_cons_of_ne (Ne.symm hc), ih hs]

theorem opensTriple?_append (h : Unquoted s) (t : List Char) :
    opensTriple? (s ++ t) = opensTriple? t := by
  have hdouble : '"' ∉ s := fun hm => nomatch h _ hm
  have hsingle : '\'' ∉ s := fun hm => nomatch h _ hm
  rw [opensTriple?, countTriple_append hdouble, countTriple_append hsingle, opensTriple?]

/-! ## The line with the comment -/

/-- A line that a comment can stand behind. -/
structure Plain (l : List Char) : Prop where
  unquoted : Unquoted l
  uncommented : '#' ∉ l
  /-- The line is not `def` or `async def` alone, which the space in front of the
  comment would make a definition. -/
  unfinished : ∀ isAsync, ¬ Defines isAsync (trimStart l ++ [' ']) []

namespace Plain

theorem definition?_eq (h : Plain l) (t : List Char) :
    definition? (trimStart (l ++ remark t)) =
      (definition? (trimStart l)).map fun found => (found.1, found.2 ++ remark t) := by
  rw [trimStart_append_remark]
  split
  · rename_i hb
    rw [trimStart_eq_nil.2 hb]
    rfl
  · exact definition?_append_remark h.unfinished t

theorem openAfter_none (h : Plain l) : openAfter none l = none := by
  have hopens : opensTriple? l = none := by
    rw [← List.append_nil l, opensTriple?_append h.unquoted]
    rfl
  rw [openAfter]
  split
  · rfl
  · exact hopens

/-- A triple quote in the comment counts, unless the line is blank or
begins a definition. -/
theorem openAfter_remark (h : Plain l) (t : List Char) :
    openAfter none (l ++ remark t) =
      if allBlank l = true ∨ (definition? (trimStart l)).isSome = true then none
      else opensTriple? t := by
  have hmark : Unquoted [' ', ' ', '#', ' '] := by decide
  have hunquoted : Unquoted (l ++ [' ', ' ', '#', ' ']) :=
    List.forall_mem_append.2 ⟨h.unquoted, hmark⟩
  have hopens : opensTriple? (l ++ remark t) = opensTriple? t := by
    rw [← opensTriple?_append hunquoted t, List.append_assoc]
    rfl
  have hsome : (definition? (trimStart (l ++ remark t))).isSome =
      (definition? (trimStart l)).isSome := by
    rw [h.definition?_eq, Option.isSome_map]
  by_cases hb : allBlank l = true
  · rw [if_pos (.inl hb), openAfter]
    exact if_pos (.inl (by rw [trimStart_append_remark, if_pos hb]; rfl))
  · have hhead : (trimStart (l ++ remark t)).head? ≠ some '#' := by
      rw [trimStart_append_remark, if_neg hb]
      obtain ⟨c, r, hr⟩ := List.exists_cons_of_ne_nil (mt trimStart_eq_nil.1 hb)
      have hc : c ∈ l := by
        refine (List.dropWhile_suffix isBlank).subset ?_
        rw [← trimStart, hr]
        exact List.mem_cons_self
      rw [hr]
      intro hhash
      exact h.uncommented (Option.some_inj.1 hhash ▸ hc)
    rw [openAfter, hopens, hsome]
    simp [hhead, hb]

theorem startsDefinition_remark (h : Plain l) (t : List Char) :
    startsDefinition none (l ++ remark t) = startsDefinition none l := by
  rw [startsDefinition, h.definition?_eq, Option.isSome_map, startsDefinition]

theorem definitionLines_remark (h : Plain l)
    (hopen : openAfter none (l ++ remark t) = none) (number : Nat)
    (b : List (List Char)) :
    definitionLines number none ((l ++ remark t) :: b) =
      definitionLines number none (l :: b) := by
  rw [definitionLines, definitionLines, hopen, h.openAfter_none,
    h.startsDefinition_remark]
  split
  · rename_i hstarts
    have hb : ¬ allBlank l = true := by
      intro hb
      rw [startsDefinition, trimStart_eq_nil.2 hb] at hstarts
      cases hstarts
    rw [indentation_append_of_not hb]
  · rfl

end Plain

theorem subset_of_definition? {found : Bool × List Char}
    (h : definition? s = some found) : found.2 ⊆ s := by
  obtain ⟨w, -, rfl⟩ := defines_iff.1 (definition?_eq_some_iff.1 h)
  exact List.subset_append_right w _

theorem subset_of_header? {header : List Char × List Char} (h : header? s = some header) :
    header.2 ⊆ s := by
  unfold header? at h
  dsimp only at h
  split at h
  · cases h
  · obtain ⟨behind, hbehind, rfl⟩ := Option.map_eq_some_iff.1 h
    refine List.Subset.trans ?_ ((List.dropWhile_suffix isBlank).subset)
    refine List.Subset.trans ?_ ((List.dropWhile_suffix isWordChar).subset)
    refine List.Subset.trans ?_ ((List.dropWhile_suffix isBlank).subset)
    rw [← trimStart, ← trimStart, after?_eq_some_iff.1 hbehind]
    exact List.subset_append_right _ _

/-- The names in a list are the same with a comment behind one of its lines, unless a
string is open there. -/
theorem map_parameterNames_append_remark (hclosed : ((Place.inside .top).after s).Closed)
    (hl : Unquoted l) (ht : '\n' ∉ t) (b : List (List Char))
    (hnames : ∀ text ∈ (Place.inside .top).read? (s ++ l ++ b.flatMap ('\n' :: ·)),
      Unspaced (parameterNames text)) :
    ((Place.inside .top).read? (s ++ (l ++ remark t) ++ b.flatMap ('\n' :: ·))).map
        parameterNames =
      ((Place.inside .top).read? (s ++ l ++ b.flatMap ('\n' :: ·))).map
        parameterNames := by
  have hspaces : allBlank [' ', ' '] = true := rfl
  have ht' : '\n' ∉ ' ' :: t := by simpa using ht
  have hstep : (((Place.inside .top).after (s ++ l)).step '\n').Closed := by
    rw [Place.after_append]
    exact (hclosed.after hl).step rfl
  rw [← map_parameterNames_remark hstep hspaces ht' (fun c hc => head?_flatMap_feed hc)
    hnames, ← List.append_assoc s, List.append_assoc (s ++ l)]
  rfl

theorem unlines_append_cons (k l : List Char) (a b : List (List Char)) :
    unlines (k :: (a ++ l :: b)) =
      unlines (k :: a) ++ ['\n'] ++ l ++ b.flatMap ('\n' :: ·) := by
  rw [unlines_append, List.flatMap_cons]
  simp

/-! ## The function read from there -/

section

variable {header : List Char × List Char}

theorem readAt?_remark_above
    (hd : outermost? (definitionLines 0 none (a ++ l :: b)) = some d)
    (habove : d.1 < a.length) (hl : Plain l) (ht : '\n' ∉ t)
    (hlist : NoStringOpen (a ++ l :: b) a.length)
    (hnames : ∀ sig ∈ ofLines? (a ++ l :: b), Unspaced sig.params) :
    readAt? (a ++ (l ++ remark t) :: b) d = readAt? (a ++ l :: b) d := by
  have hline (l : List Char) : (a ++ l :: b).getD d.1 [] = a.getD d.1 [] := by
    rw [List.getD_eq_getElem?_getD, List.getElem?_append_left habove, ←
      List.getD_eq_getElem?_getD]
  have hdrop (l : List Char) : (a ++ l :: b).drop (d.1 + 1) =
      a.drop (d.1 + 1) ++ l :: b :=
    List.drop_append_of_le_length habove
  have hmap : readAt? (a ++ (l ++ remark t) :: b) d =
      (readAt? (a ++ l :: b) d).map id := by
    refine readAt?_eq_map (by rw [hline, hline l]) fun found header hfound hheader => ?_
    have hchosen : Chosen (a ++ l :: b) d found header := ⟨hd, hfound, hheader⟩
    have hunspaced := hchosen.unspaced hnames
    have hclosed := hlist _ (hchosen.listPlace?_eq habove)
    rw [List.take_left] at hclosed
    rw [hdrop, unlines_append_cons] at hunspaced
    rw [hdrop, hdrop, Option.map_id, id]
    refine signature?_congr rfl ?_
    rw [unlines_append_cons, unlines_append_cons]
    exact map_parameterNames_append_remark hclosed hl.unquoted ht b hunspaced
  rwa [Option.map_id, id] at hmap

theorem readAt?_remark_at
    (hd : outermost? (definitionLines 0 none (a ++ l :: b)) = some d)
    (hat : d.1 = a.length) (hl : Plain l) (ht : '\n' ∉ t)
    (hnames : ∀ sig ∈ ofLines? (a ++ l :: b), Unspaced sig.params) :
    readAt? (a ++ (l ++ remark t) :: b) d = readAt? (a ++ l :: b) d := by
  have hline (l : List Char) : (a ++ l :: b).getD d.1 [] = l := by
    rw [List.getD_eq_getElem?_getD, hat,
      List.getElem?_append_right (Nat.le_refl _), Nat.sub_self]
    rfl
  have hdrop (l : List Char) : (a ++ l :: b).drop (d.1 + 1) = b := by
    rw [hat, List.drop_length_add_append]
    rfl
  rw [readAt?, readAt?, hline, hdrop, hline, hdrop, hl.definition?_eq]
  cases hfound : definition? (trimStart l) with
  | none => rfl
  | some found =>
      rw [Option.map_some, Option.bind_some, Option.bind_some]
      dsimp only
      rw [header?_append_remark]
      cases hheader : header? found.2 with
      | none => rfl
      | some header =>
          have hchosen : Chosen (a ++ l :: b) d found header :=
            ⟨hd, by rw [hline, hfound], hheader⟩
          have hunspaced := hchosen.unspaced hnames
          have hunquoted : Unquoted header.2 := fun c hc => hl.unquoted c <|
            (List.dropWhile_suffix isBlank).subset <| subset_of_definition? hfound <|
              subset_of_header? hheader hc
          have htop : ((Place.inside .top).after []).Closed := fun n hn => by
            cases hn
            rfl
          rw [hdrop, unlines_cons] at hunspaced
          refine signature?_congr rfl ?_
          rw [unlines_cons, unlines_cons]
          exact map_parameterNames_append_remark htop hunquoted ht b hunspaced

theorem readAt?_replaced (hbelow : a.length < d.1) (l l' : List Char) :
    readAt? (a ++ l' :: b) d = readAt? (a ++ l :: b) d := by
  have hdrop {m : Nat} (hm : a.length < m) : (a ++ l' :: b).drop m =
      (a ++ l :: b).drop m := by
    obtain ⟨k, rfl⟩ := Nat.exists_eq_add_of_lt hm
    rw [Nat.add_assoc, List.drop_length_add_append, List.drop_length_add_append,
      List.drop_succ_cons, List.drop_succ_cons]
  rw [readAt?, readAt?, hdrop (Nat.lt_succ_of_lt hbelow), List.getD_eq_getElem?_getD,
    List.getD_eq_getElem?_getD, ← List.head?_drop, ← List.head?_drop, hdrop hbelow]

end

/-- A comment behind a line changes nothing, unless the scan takes a triple quote in it
for one of the code. -/
theorem ofLines?_remark (ha : openBehind none a = none) (hl : Plain l)
    (hopen : openAfter none (l ++ remark t) = none)
    (hlist : NoStringOpen (a ++ l :: b) a.length)
    (hnames : ∀ sig ∈ ofLines? (a ++ l :: b), Unspaced sig.params) (ht : '\n' ∉ t) :
    ofLines? (a ++ (l ++ remark t) :: b) = ofLines? (a ++ l :: b) := by
  have hscan : definitionLines 0 none (a ++ (l ++ remark t) :: b) =
      definitionLines 0 none (a ++ l :: b) := by
    rw [definitionLines_append, ha, hl.definitionLines_remark hopen,
      definitionLines_append 0 none a, ha]
  rw [ofLines?_eq, ofLines?_eq, hscan]
  cases hd : outermost? (definitionLines 0 none (a ++ l :: b)) with
  | none => rfl
  | some d =>
      rw [Option.bind_some, Option.bind_some]
      rcases Nat.lt_trichotomy d.1 a.length with habove | hat | hbelow
      · exact readAt?_remark_above hd habove hl ht hlist hnames
      · exact readAt?_remark_at hd hat hl ht hnames
      · exact readAt?_replaced hbelow l _

/-! ## Sources -/

/-- A comment changes nothing but line numbers, behind a line as well as on a line of
its own, where no triple-quoted text is open, no string of the function's parameter list
is, and no name of a parameter has a blank in it.  Behind a line that holds code, its
own triple quotes have to come in pairs. -/
theorem comment_changes_nothing {source : String} {i : Nat}
    (hcode : openBehind none ((Text.lines source.toList).take i) = none)
    (hlist : NoStringOpen (Text.lines source.toList) i)
    (hnames : ∀ sig ∈ ofSource? source, Unspaced sig.params) :
    (∀ l t edited, (Text.lines source.toList)[i]? = some l → Plain l →
        allBlank l = true ∨ (definition? (trimStart l)).isSome = true ∨
        opensTriple? t = none →
        Text.lines edited.toList = (Text.lines source.toList).set i (l ++ remark t) →
        ofSource? edited = ofSource? source) ∧
      ∀ w t edited, i ≤ (Text.lines source.toList).length → allBlank w = true →
        Text.lines edited.toList =
          (Text.lines source.toList).take i ++ (w ++ '#' :: t) ::
          (Text.lines source.toList).drop i →
        ofSource? edited = (ofSource? source).map (pushedDown i 1) := by
  rw [ofSource?] at hnames ⊢
  generalize Text.lines source.toList = ls at hcode hlist hnames ⊢
  constructor
  · intro l t edited hline hplain htriple hlines
    obtain ⟨hi, rfl⟩ := List.getElem?_eq_some_iff.1 hline
    have hset (m : List Char) : ls.set i m = ls.take i ++ m :: ls.drop (i + 1) := by
      rw [List.set_eq_take_append_cons_drop, if_pos hi]
    have hself : ls.take i ++ ls[i] :: ls.drop (i + 1) = ls := by
      rw [← hset, List.set_getElem_self]
    have htake : (ls.take i).length = i := List.length_take_of_le hi.le
    have hopen : openAfter none (ls[i] ++ remark t) = none := by
      rw [hplain.openAfter_remark]
      split
      · rfl
      · rename_i hcode
        exact htriple.elim (fun h => absurd (.inl h) hcode) fun h =>
          h.resolve_left fun h => hcode (.inr h)
    have ht : '\n' ∉ t := by
      have hmem : ls[i] ++ remark t ∈ Text.lines edited.toList := by
        rw [hlines, hset]
        simp
      exact fun hn => not_mem_of_mem_lines hmem (by simp [remark, hn])
    have hremark := ofLines?_remark hcode hplain hopen (by rwa [hself, htake])
      (by rwa [hself]) ht
    rw [ofSource?, hlines, hset, hremark, hself]
  · intro w t edited hi hw hlines
    have hself : ls.take i ++ ls.drop i = ls := List.take_append_drop i ls
    have htake : (ls.take i).length = i := List.length_take_of_le hi
    have ht : '\n' ∉ t := by
      have hmem : w ++ '#' :: t ∈ Text.lines edited.toList := by
        rw [hlines]
        simp
      exact fun hn => not_mem_of_mem_lines hmem (by simp [hn])
    have hcomment := ofLines?_comment hcode (by rwa [hself, htake]) (by rwa [hself]) hw ht
    rw [ofSource?, hlines, hcomment, htake, hself]

/-- A comment with a quote in it stands in a parameter list, behind a line and on
a line of its own. -/
theorem comment_changes_nothing_listed :
    let source := "def f(a,\n      b):\n    pass"
    let behind := "def f(a,  # it's (\n      b):\n    pass"
    let between := "def f(a,\n# def g(\n      b):\n    pass"
    ofSource? source = some ⟨"f", ["a", "b"], false, 0, 0⟩ ∧
      ofSource? behind = ofSource? source ∧
        ofSource? between = (ofSource? source).map (pushedDown 1 1) := by
  intro source behind between
  have hplain : Plain "def f(a,".toList := by
    refine ⟨by decide, by decide, fun isAsync h => ?_⟩
    exact absurd (definition?_eq_some_iff.2 h) (by cases isAsync <;> decide)
  have hbehind := (@comment_changes_nothing source 0 (by decide) (by decide)
    (by decide +kernel)).1
  have hbetween := (@comment_changes_nothing source 1 (by decide) (by decide)
    (by decide +kernel)).2
  refine ⟨by decide +kernel, ?_, ?_⟩
  · exact hbehind "def f(a,".toList "it's (".toList behind (by decide) hplain
      (by decide) (by decide)
  · exact hbetween [] " def g(".toList between (by decide) (by decide) (by decide)

/-- A triple quote in a comment opens a text for the scan, and the function
below is not found. -/
theorem triple_quote_in_comment :
    let source := "x = 1\ndef f(a):\n    pass"
    let edited := "x = 1  # \"\"\"\ndef f(a):\n    pass"
    Text.lines edited.toList =
      (Text.lines source.toList).set 0 ("x = 1".toList ++ remark "\"\"\"".toList) ∧
      ofSource? source = some ⟨"f", ["a"], false, 1, 0⟩ ∧ ofSource? edited = none := by
  decide +kernel

end NotebookService.Signature
