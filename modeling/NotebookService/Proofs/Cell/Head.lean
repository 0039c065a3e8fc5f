/-
# `NotebookService.Proofs.Cell.Head` — the head of an HTTP cell on a line of its own

`@HTTP GET /a` says what an HTTP cell answers to.  Verb and path can also stand on
the line below `@HTTP`, which is then read as it is left once the indentation that
all lines share has been taken off.  Behind the directive the rest of the line is
trimmed; the line below is not.  So a head that is indented further than the
declaration is missed, and one that is indented less decides itself what is taken
off, from the metadata below as well.

`head_below_iff` says this of every source.  If the head stands no further in than the
lines share, the cell is the one that would be written on one line at the column of the
head; otherwise no verb is found.  It is the cell with the whole head behind the
directive exactly in the first case, unless that one is no cell either.
-/
import NotebookService.Proofs.Declaration.Forms
import NotebookService.Proofs.Metadata.Layout

namespace NotebookService

open NotebookService.Text

namespace Declaration

variable {source : String} {ls body : List (List Char)}

/-- The source declares these lines, as they are written but for blanks at their ends
and blank lines, and has this body. -/
def Declares (source : String) (ls body : List (List Char)) : Prop :=
  ∃ declared, splitDeclaring ((Text.lines source.toList).dropWhile allBlank) =
    (declared, body) ∧
    declared.filter (fun l => !allBlank l) = ls

theorem Declares.split?_eq (h : Declares source ls body) (hne : ls ≠ []) :
    split? source = some ⟨(ls.map (cut (least (ls.map indentation)))).map String.ofList,
      body.map String.ofList⟩ := by
  obtain ⟨declared, hsplit, rfl⟩ := h
  have hdedent : dedent declared ≠ [] := by simpa [dedent] using hne
  have hcond : ¬ ((dedent declared).isEmpty && body.all allBlank) = true := by
    simp [hdedent]
  rw [split?, hsplit]
  exact if_neg hcond

end Declaration

namespace CellSpec

open NotebookService.Declaration

/-! ## What an HTTP cell is made of -/

/-- The cell with this verb and path: none if its metadata are refused
or it has no body. -/
def httpSpec? (verb : Http.Verb) (path : String) (metadata : List String)
    (body : String) : Option CellSpec :=
  match (Metadata.read 2 metadata).toOption with
  | none => none
  | some m =>
    if body = "" then none
    else some (.http (Http.Endpoint.ofMetadata verb path m body).value)

theorem value_readMetadata (n : Nat) (lines : List String) :
    (readMetadata n lines).value = (Metadata.read n lines).toOption := by
  unfold readMetadata
  split
  · rename_i h
    rw [h]
    rfl
  · rename_i h
    rw [h]
    rfl

/-- Where the lines stand matters for what is said about them only. -/
theorem toOption_read (n m : Nat) (lines : List String) :
    (Metadata.read n lines).toOption = (Metadata.read m lines).toOption := by
  cases hn : Metadata.read n lines with
  | ok entries => rw [Metadata.read_renumbered hn m]
  | error refusal =>
      cases hm : Metadata.read m lines with
      | ok entries =>
          rw [Metadata.read_renumbered hm n] at hn
          cases hn
      | error refusal' => rfl

variable {verb : Http.Verb} {rest body : String} {lines : List String}

theorem value_ofHttp {path : String}
    (hs : splitHead (httpHead rest lines).text = (verb.word, path)) (hp : path ≠ "") :
    (ofHttp rest lines body).value =
      httpSpec? verb path (httpHead rest lines).metadata body := by
  have hv : Http.Verb.ofWord? verb.word = some verb := by cases verb <;> rfl
  have hread := value_readMetadata (httpHead rest lines).firstLine
    (httpHead rest lines).metadata
  rw [toOption_read _ 2] at hread
  unfold ofHttp
  simp only [hs, hv, if_neg hp]
  rw [Noted.value_bind, hread, httpSpec?]
  cases (Metadata.read 2 (httpHead rest lines).metadata).toOption with
  | none => rfl
  | some m =>
      dsimp only
      split <;> rfl

theorem ofHttp_of_no_verb
    (hs : Http.Verb.ofWord? (splitHead (httpHead rest lines).text).1 = none) :
    ofHttp rest lines body = ⟨none, [.httpMethodMissing]⟩ := by
  unfold ofHttp
  simp only [hs]
  rfl

/-! ## Where the head is found -/

/-- Verb and path. -/
def headText (verb : Http.Verb) (path : List Char) : List Char :=
  verb.word.toList ++ ' ' :: path

/-- The directive behind some blanks. -/
def directiveText (margin : List Char) : List Char :=
  margin ++ Directive.http.token.toList

/-- Directive and head in one line. -/
def headLine (margin : List Char) (verb : Http.Verb) (path : List Char) : List Char :=
  directiveText margin ++ ' ' :: headText verb path

theorem splitAtBlank_append {w : List Char} (h : NoBlank w) (t : List Char) :
    splitAtBlank (w ++ ' ' :: t) = some (w, t) := by
  have hw : ∀ c ∈ w, (!isBlank c) = true := fun c hc => by simp [h c hc]
  have hd : (w ++ ' ' :: t).dropWhile (fun c => !isBlank c) = ' ' :: t := by
    rw [List.dropWhile_append_of_pos hw, List.dropWhile_cons_of_neg (by simp)]
  have ht : (w ++ ' ' :: t).takeWhile (fun c => !isBlank c) = w := by
    rw [List.takeWhile_append_of_pos hw, List.takeWhile_cons_of_neg (by simp),
      List.append_nil]
  rw [splitAtBlank, hd]
  exact congrArg (fun u => some (u, t)) ht

theorem noBlank_word (verb : Http.Verb) : NoBlank verb.word.toList := by
  cases verb <;> decide

theorem noBlank_token : NoBlank Directive.http.token.toList := by decide

section

variable {verb : Http.Verb} {path margin : List Char} {k n : Nat}

theorem splitHead_headText (ht : trim path = path) :
    splitHead (String.ofList (headText verb path)) = (verb.word, String.ofList path) := by
  rw [splitHead, String.toList_ofList, headText, splitAtBlank_append (noBlank_word verb)]
  simp only [String.ofList_toList, ht]

theorem trim_headText (hne : path ≠ []) (ht : trim path = path) :
    trim (headText verb path) = headText verb path := by
  have hb : ¬ allBlank path = true := by
    intro hb
    exact hne (ht ▸ trim_of_allBlank hb)
  have hend : trimEnd path = path := by rw [← ht, trim, trimEnd_trimEnd]
  obtain ⟨c, w, hw⟩ : ∃ c w, verb.word.toList = c :: w := by
    cases verb <;> exact ⟨_, _, rfl⟩
  have hc : isBlank c = false := noBlank_word verb c (hw ▸ List.mem_cons_self)
  have hsplit : headText verb path = (verb.word.toList ++ [' ']) ++ path := by
    simp [headText]
  have hend' : trimEnd (headText verb path) = headText verb path := by
    rw [hsplit, trimEnd_append_of_not hb, hend]
  rw [headText, hw, List.cons_append] at hend' ⊢
  rw [trim_cons_of_not hc, hend']

theorem firstWord_of_trim_eq {s w t : List Char} (hw : NoBlank w)
    (hs : trim s = w ++ ' ' :: t) :
    Directive.firstWord s = (w, trim t) := by
  rw [Directive.firstWord, hs, splitAtBlank_append hw]

theorem detect?_headLine {l : List Char} (hne : path ≠ []) (ht : trim path = path)
    (hl : trim l = headLine [] verb path) :
    Directive.detect? (String.ofList l) =
      some (.http, String.ofList (headText verb path)) := by
  have hword : Directive.firstWord l =
      (Directive.http.token.toList, headText verb path) := by
    rw [firstWord_of_trim_eq noBlank_token hl, trim_headText hne ht]
  rw [Directive.detect?, String.toList_ofList, hword]
  rfl

theorem detect?_directiveText {l : List Char} (hl : trim l = directiveText []) :
    Directive.detect? (String.ofList l) = some (.http, "") := by
  have hword : Directive.firstWord l = (Directive.http.token.toList, []) := by
    rw [Directive.firstWord, hl]
    rfl
  rw [Directive.detect?, String.toList_ofList, hword]
  rfl

theorem trim_headLine (hm : allBlank margin = true) (hne : path ≠ [])
    (ht : trim path = path) :
    trim (headLine margin verb path) = headLine [] verb path := by
  have hb : ¬ allBlank (headText verb path) = true := by
    intro hb
    have hnil := trim_of_allBlank hb
    rw [trim_headText hne ht] at hnil
    simp [headText] at hnil
  have hend : trimEnd (headText verb path) = headText verb path := by
    rw [← trim_headText hne ht, trim, trimEnd_trimEnd]
  have hsplit : headLine margin verb path = margin ++ headLine [] verb path := by
    simp [headLine, directiveText]
  have hcut : headLine [] verb path =
      (directiveText [] ++ [' ']) ++ headText verb path := by simp [headLine]
  have hcons : ∃ c w, headLine [] verb path = c :: w ∧ isBlank c = false :=
    ⟨_, _, rfl, rfl⟩
  obtain ⟨c, w, hw, hc⟩ := hcons
  rw [hsplit, trim_append_of_allBlank_left hm, hw, trim_cons_of_not hc, ← hw, hcut,
    trimEnd_append_of_not hb, hend]

theorem trim_directiveText (hm : allBlank margin = true) :
    trim (directiveText margin) = directiveText [] := by
  rw [directiveText, trim_append_of_allBlank_left hm]
  rfl

theorem indentation_directiveText_append (t : List Char) :
    indentation (directiveText margin ++ t) = indentation (directiveText margin) := by
  refine indentation_append_of_not ?_ t
  intro hb
  have hat : isBlank '@' = true :=
    allBlank_iff.1 hb '@' (by simp [directiveText, Directive.token])
  cases hat

theorem indentation_headText : indentation (headText verb path) = 0 := by
  cases verb <;> exact indentation_cons_of_not rfl

theorem trim_cut {l : List Char} (h : n ≤ indentation l) : trim (cut n l) = trim l := by
  rw [← trim_trimStart, trimStart_cut h, trim_trimStart]

variable {source : String} {first : List Char} {ls body : List (List Char)}

/-- The columns that the lines of a declaration have in common. -/
def columns (ls : List (List Char)) : Nat := least (ls.map indentation)

theorem columns_le {l : List Char} (h : l ∈ ls) : columns ls ≤ indentation l :=
  least_le (List.mem_map_of_mem h)

/-- The text of body lines. -/
def textOf (body : List (List Char)) : String :=
  Declaration.bodyText ⟨[], body.map String.ofList⟩

/-- With the directive in its first line, a source is what the lines below say without
the columns they share. -/
theorem ofSource_of_declares {rest : String} (h : Declares source (first :: ls) body)
    (hd : ∀ l, trim l = trim first →
      Directive.detect? (String.ofList l) = some (.http, rest)) :
    ofSource source =
      ofHttp rest ((ls.map (cut (columns (first :: ls)))).map String.ofList)
      (textOf body) := by
  have htrim : trim (cut (columns (first :: ls)) first) = trim first :=
    trim_cut (columns_le List.mem_cons_self)
  have hsplit := h.split?_eq (List.cons_ne_nil first ls)
  rw [List.map_cons, List.map_cons] at hsplit
  simp only [ofSource, hsplit, directive?]
  rw [← columns, hd _ htrim]
  rfl

theorem columns_cons_cons (a b : List Char) (ls : List (List Char)) :
    columns (a :: b :: ls) = min (indentation b) (columns (a :: ls)) := by
  have hfold : (ls.map indentation).foldl min (min (indentation b) (indentation a)) =
      min (indentation b) ((ls.map indentation).foldl min (indentation a)) :=
        List.foldl_assoc
  rw [Nat.min_comm] at hfold
  exact hfold

theorem value_of_headLine (hm : allBlank margin = true) (hne : path ≠ [])
    (ht : trim path = path) (h : Declares source (headLine margin verb path :: ls) body) :
    (ofSource source).value = httpSpec? verb (String.ofList path)
      ((ls.map (cut (columns (directiveText margin :: ls)))).map String.ofList)
      (textOf body) := by
  have hcolumns : columns (headLine margin verb path :: ls) =
      columns (directiveText margin :: ls) := by
    rw [columns, columns, List.map_cons, List.map_cons, headLine,
      indentation_directiveText_append]
  have hdetect : ∀ l, trim l = trim (headLine margin verb path) →
      Directive.detect? (String.ofList l) =
      some (.http, String.ofList (headText verb path)) := by
    intro l hl
    rw [trim_headLine hm hne ht] at hl
    exact detect?_headLine hne ht hl
  have hrest : String.ofList (headText verb path) ≠ "" := by simp [headText]
  have hhead (lines : List String) : httpHead (String.ofList (headText verb path)) lines =
      ⟨_, 2, lines⟩ := if_pos hrest
  rw [ofSource_of_declares h hdetect, hcolumns]
  have hsplit (lines : List String) :
      splitHead (httpHead (String.ofList (headText verb path)) lines).text =
      (verb.word, String.ofList path) := by
    rw [hhead]
    exact splitHead_headText ht
  rw [value_ofHttp (hsplit _) (by simpa using hne), hhead]

/-- The head on a line of its own keeps the columns that it has beyond those
that are taken off. -/
theorem ofSource_of_headBelow (hm : allBlank margin = true)
    (h : Declares source
      (directiveText margin :: shifted k (headText verb path) :: ls) body)
    (hn : n = min k (columns (directiveText margin :: ls))) :
    ofSource source = ofHttp ""
      (String.ofList (shifted (k - n) (headText verb path)) ::
        (ls.map (cut n)).map String.ofList) (textOf body) := by
  have hindent : indentation (shifted k (headText verb path)) = k := by
    rw [indentation_shifted, indentation_headText, Nat.add_zero]
  have hcolumns := columns_cons_cons (directiveText margin)
    (shifted k (headText verb path)) ls
  rw [hindent, ← hn] at hcolumns
  have hcut : cut n (shifted k (headText verb path)) =
      shifted (k - n) (headText verb path) := by
    have hle : n ≤ k := hn ▸ Nat.min_le_left k _
    rw [cut, cut?_shifted_of_le hle, Option.getD_some]
  rw [ofSource_of_declares h fun l hl =>
    detect?_directiveText (hl.trans (trim_directiveText hm)), hcolumns, List.map_cons,
    List.map_cons, hcut]

/-- Further in than the lines of the declaration, the head has a blank where its
verb is looked for. -/
theorem ofSource_of_headBelow_of_lt (hm : allBlank margin = true)
    (h : Declares source
      (directiveText margin :: shifted k (headText verb path) :: ls) body)
    (hk : columns (directiveText margin :: ls) < k) :
    ofSource source = ⟨none, [.httpMethodMissing]⟩ := by
  have hmin : columns (directiveText margin :: ls) =
      min k (columns (directiveText margin :: ls)) :=
    (Nat.min_eq_right hk.le).symm
  obtain ⟨j, hj⟩ : ∃ j, k - columns (directiveText margin :: ls) = j + 1 :=
    ⟨_, (Nat.sub_add_cancel (by omega)).symm⟩
  rw [ofSource_of_headBelow hm h hmin, hj]
  have hword : (splitHead (String.ofList (shifted (j + 1) (headText verb path)))).1 =
      "" := by
    rw [splitHead, String.toList_ofList, shifted_succ]
    rfl
  refine ofHttp_of_no_verb ?_
  show Http.Verb.ofWord?
    (splitHead (String.ofList (shifted (j + 1) (headText verb path)))).1 = none
  rw [hword]
  rfl

/-- Otherwise the lines are moved to the left until the head begins its line. -/
theorem value_of_headBelow (hm : allBlank margin = true) (hne : path ≠ [])
    (ht : trim path = path)
    (h : Declares source
      (directiveText margin :: shifted k (headText verb path) :: ls) body)
    (hk : k ≤ columns (directiveText margin :: ls)) :
    (ofSource source).value =
      httpSpec? verb (String.ofList path) ((ls.map (cut k)).map String.ofList)
      (textOf body) := by
  rw [ofSource_of_headBelow hm h (Nat.min_eq_left hk).symm, Nat.sub_self, shifted_zero]
  exact value_ofHttp (splitHead_headText ht) (by simpa using hne)

theorem columns_replicate_cons (hk : ∀ l ∈ ls, k ≤ indentation l) :
    columns (directiveText (List.replicate k ' ') :: ls) = k := by
  have hindent : indentation (directiveText (List.replicate k ' ')) = k := by
    have hzero : indentation Directive.http.token.toList = 0 := rfl
    have hshifted := indentation_shifted (l := Directive.http.token.toList) k
    rwa [hzero, Nat.add_zero] at hshifted
  have hle : columns (directiveText (List.replicate k ' ') :: ls) ≤ k := by
    have hmem : directiveText (List.replicate k ' ') ∈
        directiveText (List.replicate k ' ') :: ls := List.mem_cons_self
    have hfirst := columns_le hmem
    rwa [hindent] at hfirst
  refine Nat.le_antisymm hle ?_
  have hne : (directiveText (List.replicate k ' ') :: ls).map indentation ≠ [] := by simp
  obtain ⟨l, hl, he⟩ := List.mem_map.1 (least_mem hne)
  rw [columns, ← he]
  rcases List.mem_cons.1 hl with rfl | hl
  · exact hindent.ge
  · exact hk l hl

theorem httpSpec?_shifted (j : Nat) (p text : String) :
    httpSpec? verb p ((ls.map (shifted j)).map String.ofList) text =
      httpSpec? verb p (ls.map String.ofList) text := by
  have hlines : (ls.map (shifted j)).map String.ofList =
      (ls.map String.ofList).map fun l => String.ofList (List.replicate j ' ') ++ l := by
    simp [shifted, Function.comp_def]
  rw [httpSpec?, httpSpec?, hlines, Metadata.read_indented]

end

/-- Verb and path may stand below `@HTTP`, if they stand no further in than the lines of
the declaration do: then the cell is the one with all of it on one line at their column.
Further in, no verb is found.  So the two ways of writing agree exactly in the first
case, unless neither is a cell, provided that a head further out leaves nothing but
spaces in front of the lines below it. -/
theorem head_below_iff (verb : Http.Verb) {path margin : List Char} (hne : path ≠ [])
    (ht : trim path = path) (hm : allBlank margin = true) (k : Nat)
    {ls body : List (List Char)} {one two : String}
    (hone : Declares one (headLine margin verb path :: ls) body)
    (htwo : Declares two
      (directiveText margin :: shifted k (headText verb path) :: ls) body) :
    (columns (directiveText margin :: ls) < k →
      ofSource two = ⟨none, [.httpMethodMissing]⟩) ∧
    (k ≤ columns (directiveText margin :: ls) → ∀ moved,
      Declares moved (headLine (List.replicate k ' ') verb path :: ls) body →
        (ofSource two).value = (ofSource moved).value) ∧
    ((k < columns (directiveText margin :: ls) →
      ∀ l ∈ ls, ∃ t, l = shifted (columns (directiveText margin :: ls)) t) →
      ((ofSource two).value = (ofSource one).value ↔
        k ≤ columns (directiveText margin :: ls) ∨ (ofSource one).value = none)) := by
  have hmissed := ofSource_of_headBelow_of_lt hm htwo
  have hfound := value_of_headBelow hm hne ht htwo
  have hline := value_of_headLine hm hne ht hone
  refine ⟨hmissed, ?_, ?_⟩
  · intro hk moved hmoved
    have hinside : ∀ l ∈ ls, k ≤ indentation l :=
      fun l hl => hk.trans (columns_le (List.mem_cons_of_mem _ hl))
    have hvalue := value_of_headLine (allBlank_replicate_space k) hne ht hmoved
    rw [columns_replicate_cons hinside] at hvalue
    exact (hfound hk).trans hvalue.symm
  · intro hspaces
    have hagree (hk : k ≤ columns (directiveText margin :: ls)) : (ofSource two).value =
        (ofSource one).value := by
      rw [hfound hk, hline]
      rcases Nat.lt_or_eq_of_le hk with hlt | rfl
      · have hcut : ls.map (cut k) =
            (ls.map (cut (columns (directiveText margin :: ls)))).map
              (shifted (columns (directiveText margin :: ls) - k)) := by
          rw [List.map_map]
          refine List.map_congr_left ?_
          intro l hl
          obtain ⟨t, rfl⟩ := hspaces hlt l hl
          rw [Function.comp_apply, cut, cut?_shifted_of_le hk, Option.getD_some, cut,
            cut?_shifted_of_le le_rfl, Option.getD_some, Nat.sub_self, shifted_zero]
        rw [hcut, httpSpec?_shifted]
      · rfl
    constructor
    · intro he
      rcases Nat.lt_or_ge (columns (directiveText margin :: ls)) k with hlt | hge
      · exact .inr (he ▸ congrArg Noted.value (hmissed hlt))
      · exact .inl hge
    · rintro (hk | hnone)
      · exact hagree hk
      · rcases Nat.lt_or_ge (columns (directiveText margin :: ls)) k with hlt | hge
        · rw [hmissed hlt, hnone]
        · exact hagree hge

theorem head_below_iff_outside :
    (ofSource "#   @HTTP\n# GET /x\n#   query: [a]\ndef f(a): pass").value =
      (ofSource "#   @HTTP GET /x\n#   query: [a]\ndef f(a): pass").value := by
  have hone : Declares "#   @HTTP GET /x\n#   query: [a]\ndef f(a): pass"
      (headLine [' ', ' '] .get ['/', 'x'] :: ["  query: [a]".toList])
      ["def f(a): pass".toList] := ⟨_, rfl, rfl⟩
  have htwo : Declares "#   @HTTP\n# GET /x\n#   query: [a]\ndef f(a): pass"
      (directiveText [' ', ' '] :: shifted 0 (headText .get ['/', 'x']) ::
        ["  query: [a]".toList])
      ["def f(a): pass".toList] := ⟨_, rfl, rfl⟩
  have hspaces : ∀ l ∈ ["  query: [a]".toList],
      ∃ t, l = shifted (columns (directiveText [' ', ' '] :: ["  query: [a]".toList]))
      t := by
    intro l hl
    rw [List.mem_singleton.1 hl]
    exact ⟨"query: [a]".toList, rfl⟩
  exact ((head_below_iff .get (by decide) rfl rfl 0 hone htwo).2.2 fun _ => hspaces).2
    (.inl (Nat.zero_le _))

/-- Indented further than the declaration, the head is missed. -/
theorem head_below_missed :
    ¬ ∀ (verb : Http.Verb) (path : List Char) (k : Nat) (ls body : List (List Char))
      (one two : String), path ≠ [] → trim path = path →
        Declares one (headLine [] verb path :: ls) body →
        Declares two (directiveText [] :: shifted k (headText verb path) :: ls) body →
          (ofSource two).value = (ofSource one).value := by
  intro hall
  have hone : Declares "# @HTTP GET /x\ndef f(): pass" [headLine [] .get ['/', 'x']]
      ["def f(): pass".toList] :=
    ⟨_, rfl, rfl⟩
  have htwo : Declares "# @HTTP\n#   GET /x\ndef f(): pass"
      [directiveText [], shifted 2 (headText .get ['/', 'x'])] ["def f(): pass".toList] :=
        ⟨_, rfl, rfl⟩
  have hmissed := ofSource_of_headBelow_of_lt rfl htwo (by decide)
  have hagree := hall .get ['/', 'x'] 2 [] _ _ _ (by decide) rfl hone htwo
  have hcell : (ofSource "# @HTTP GET /x\ndef f(): pass").value.isSome = true := by
    decide +kernel
  rw [← hagree, hmissed] at hcell
  cases hcell

end CellSpec

end NotebookService
