/-
# `NotebookService.Proofs.Signature.ReadBack` — definitions are read back

A parameter list is read three times: to its end, for the commas that cut it, and part
by part for the names.  The second reading is of what the first has copied, in which
line ends and comments are blanks.  `Passes` is what has to be known of a piece of the
list, so that both readings come out of it together; it goes from characters to pieces,
parameters and the list as a whole.
-/
import NotebookService.Proofs.Signature.Written

namespace NotebookService.Signature

open NotebookService.Text

variable {s t u w : List Char} {c : Char} {d : Nat}

/-! ## Reading a list -/

/-- The reader goes through `s` from `n` to `m` and takes `copy` over from it, and
the copy is not cut. -/
structure Passes (n m : Nesting) (s copy : List Char) : Prop where
  after_eq : (Place.inside n).after s = .inside m
  copied_eq : (Place.inside n).copied s = copy
  uncut : ∀ {t p : List Char} {ps : List (List Char)}, splitNested m t = p :: ps →
    splitNested n (copy ++ t) = (copy ++ p) :: ps

namespace Passes

variable {n m o : Nesting} {copy copy' : List Char} {mark : Char}

theorem nil (n : Nesting) : Passes n n [] [] := ⟨rfl, rfl, fun h => h⟩

theorem append (hs : Passes n m s copy) (hu : Passes m o u copy') :
    Passes n o (s ++ u) (copy ++ copy') where
  after_eq := by rw [Place.after_append, hs.after_eq, hu.after_eq]
  copied_eq := by rw [Place.copied_append, hs.after_eq, hs.copied_eq, hu.copied_eq]
  uncut := by
    intro t p ps h
    rw [List.append_assoc, List.append_assoc]
    exact hs.uncut (hu.uncut h)

theorem char (hhash : ¬ (n.quote.isNone = true ∧ c = '#'))
    (hclose : ¬ (n = .top ∧ c = ')')) (hfeed : c ≠ '\n') (hcut : n.separates c = false) :
    Passes n (n.step c) [c] [c] where
  after_eq := by
    rw [Place.after_cons, Place.after_nil, Place.step, Place.insideStep, if_neg hhash,
      if_neg hclose]
  copied_eq := by
    rw [Place.copied_cons, Place.copied_nil, Place.copy,
      if_neg (not_or.2 ⟨hhash, hclose⟩), if_neg hfeed]
    rfl
  uncut := splitNested_cons hcut

theorem unquoted (hq : Nesting.isQuote c = false) (hhash : c ≠ '#') (hfeed : c ≠ '\n')
    (hd : c = ')' ∨ c = ',' → d ≠ 0) :
    Passes ⟨d, none⟩ ⟨if Nesting.isOpening c then d + 1 else if Nesting.isClosing c
      then d - 1 else d, none⟩
      [c] [c] := by
  rw [← step_of_not_isQuote hq]
  refine char (fun h => hhash h.2) ?_ hfeed ?_
  · rintro ⟨htop, hc⟩
    exact hd (.inl hc) (congrArg Nesting.depth htop)
  · by_cases hc : c = ','
    · simp [Nesting.separates, hd (.inr hc)]
    · exact separates_of_ne hc

theorem plain (d : Nat) (hs : ∀ c ∈ s, c ∉ marks ∧ c ≠ ',' ∧ c ≠ '\n') :
    Passes ⟨d, none⟩ ⟨d, none⟩ s s := by
  induction s with
  | nil => exact nil _
  | cons c s ih =>
      obtain ⟨⟨hm, hcomma, hfeed⟩, hs⟩ := List.forall_mem_cons.1 hs
      have hparen : c ≠ ')' := ne_of_not_mem_marks hm (by decide)
      have hc := unquoted (d := d) (isQuote_of_not_mem_marks hm)
        (ne_of_not_mem_marks hm (by decide)) hfeed
        fun h => (h.elim hparen hcomma).elim
      rw [isOpening_of_not_mem_marks hm, isClosing_of_not_mem_marks hm] at hc
      exact hc.append (ih hs)

theorem inside_quotes (d : Nat) (hs : mark ∉ s) (hfeed : '\n' ∉ s) :
    Passes ⟨d, some mark⟩ ⟨d, some mark⟩ s s := by
  induction s with
  | nil => exact nil _
  | cons c s ih =>
      obtain ⟨hc, hs⟩ := not_or.1 (mt List.mem_cons.2 hs)
      obtain ⟨hn, hfeed⟩ := not_or.1 (mt List.mem_cons.2 hfeed)
      have hstep : Nesting.step ⟨d, some mark⟩ c = ⟨d, some mark⟩ := if_neg (Ne.symm hc)
      have hchar := char (n := ⟨d, some mark⟩) (fun h => nomatch h.1)
        (fun h => nomatch h.1) (Ne.symm hn)
        (by simp [Nesting.separates])
      rw [hstep] at hchar
      exact hchar.append (ih hs hfeed)

theorem quoted (d : Nat) (hmark : Nesting.isQuote mark = true) (hs : mark ∉ s)
    (hfeed : '\n' ∉ s) :
    Passes ⟨d, none⟩ ⟨d, none⟩ (mark :: (s ++ [mark])) (mark :: (s ++ [mark])) := by
  have hquote : mark ≠ '#' ∧ mark ≠ ')' ∧ mark ≠ '\n' ∧ mark ≠ ',' := by
    refine ⟨?_, ?_, ?_, ?_⟩ <;> rintro rfl <;> cases hmark
  obtain ⟨hhash, hparen, hn, hcomma⟩ := hquote
  have hopen := char (n := ⟨d, none⟩) (fun h => hhash h.2) (fun h => hparen h.2) hn
    (separates_of_ne hcomma)
  have hclose := char (n := ⟨d, some mark⟩) (fun h => hhash h.2) (fun h => hparen h.2) hn
    (by simp [Nesting.separates])
  have hopened : Nesting.step ⟨d, none⟩ mark = ⟨d, some mark⟩ := if_pos hmark
  have hclosed : Nesting.step ⟨d, some mark⟩ mark = ⟨d, none⟩ := if_pos rfl
  rw [hopened] at hopen
  rw [hclosed] at hclose
  exact hopen.append ((inside_quotes d hs hfeed).append hclose)

/-- What is left of line ends is blank. -/
theorem of_allBlank (hafter : (Place.inside ⟨d, none⟩).after s = .inside ⟨d, none⟩)
    (hcopy : allBlank ((Place.inside ⟨d, none⟩).copied s) = true) :
    Passes ⟨d, none⟩ ⟨d, none⟩ s ((Place.inside ⟨d, none⟩).copied s) :=
  ⟨hafter, rfl, fun h => splitNested_blanks (quoted_of_quote_eq_none rfl) hcopy h⟩

end Passes

theorem LineEnd.Legal.exists_passes {e : LineEnd} (he : e.Legal) (d : Nat) :
    ∃ w, allBlank w = true ∧ Passes ⟨d, none⟩ ⟨d, none⟩ e.text w := by
  have hidle : (Place.inside ⟨d, none⟩).Idle ⟨d, none⟩ := ⟨rfl, rfl⟩
  have hline : ((Place.inside ⟨d, none⟩).after e.line).Idle ⟨d, none⟩ ∧
      allBlank ((Place.inside ⟨d, none⟩).copied e.line) = true := by
    rw [LineEnd.line]
    cases hr : e.remark with
    | none =>
        rw [List.append_nil]
        exact hidle.blanks he.blank
    | some r =>
        obtain ⟨hafter, hcopy⟩ := hidle.remark he.blank (he.remark_feedless r hr)
        refine ⟨?_, hcopy⟩
        rw [hafter]
        exact ⟨rfl, rfl⟩
  obtain ⟨hafter, hcopy⟩ := hline
  obtain ⟨hstep, hfeed⟩ := hafter.feed
  have hblank : allBlank ((Place.inside ⟨d, none⟩).copied e.text) = true := by
    rw [LineEnd.text, Place.copied_append, Place.copied_cons, Place.copied_nil, hfeed,
      allBlank_append, hcopy]
    rfl
  refine ⟨_, hblank, Passes.of_allBlank ?_ hblank⟩
  rw [LineEnd.text, Place.after_append, Place.after_cons, Place.after_nil, hstep]

theorem exists_passes_ends {ends : List LineEnd} (hends : ∀ e ∈ ends, e.Legal) (d : Nat) :
    ∃ w, allBlank w = true ∧
      Passes ⟨d, none⟩ ⟨d, none⟩ (ends.flatMap LineEnd.text) w := by
  induction ends with
  | nil => exact ⟨[], rfl, Passes.nil _⟩
  | cons e ends ih =>
      obtain ⟨he, hends⟩ := List.forall_mem_cons.1 hends
      obtain ⟨w, hw, hline⟩ := he.exists_passes d
      obtain ⟨v, hv, hlines⟩ := ih hends
      exact ⟨w ++ v, by rw [allBlank_append, hw, hv]; rfl, hline.append hlines⟩

namespace Piece

variable {ps : List Piece}

theorem exists_passes (hlegal : ∀ p ∈ ps, p.Legal) (hb : balanced d ps = true) :
    ∃ copy, Passes ⟨d, none⟩ .top (textAll ps) copy := by
  fun_induction balanced d ps with
  | case1 d =>
      have hd : d = 0 := of_decide_eq_true hb
      exact ⟨[], hd ▸ Passes.nil _⟩
  | case2 d c ps ho ih =>
      obtain ⟨⟨hq, hhash, hcomma, hfeed⟩, hps⟩ := List.forall_mem_cons.1 hlegal
      obtain ⟨copy, hcopy⟩ := ih hps hb
      have hparen : c ≠ ')' := by
        rintro rfl
        cases ho
      have hc := Passes.unquoted (d := d) hq hhash hfeed fun h =>
        (h.elim hparen hcomma).elim
      rw [if_pos ho] at hc
      exact ⟨_, hc.append hcopy⟩
  | case3 d c ps ho hcl ih =>
      obtain ⟨⟨hq, hhash, hcomma, hfeed⟩, hps⟩ := List.forall_mem_cons.1 hlegal
      rw [Bool.and_eq_true, decide_eq_true_eq] at hb
      obtain ⟨copy, hcopy⟩ := ih hps hb.2
      have hc := Passes.unquoted hq hhash hfeed fun _ => hb.1
      rw [if_neg ho, if_pos hcl] at hc
      exact ⟨_, hc.append hcopy⟩
  | case4 d c ps ho hcl ih =>
      obtain ⟨⟨hq, hhash, hcomma, hfeed⟩, hps⟩ := List.forall_mem_cons.1 hlegal
      obtain ⟨copy, hcopy⟩ := ih hps hb
      have hparen : c ≠ ')' := by
        rintro rfl
        exact hcl rfl
      have hc := Passes.unquoted (d := d) hq hhash hfeed fun h =>
        (h.elim hparen hcomma).elim
      rw [if_neg ho, if_neg hcl] at hc
      exact ⟨_, hc.append hcopy⟩
  | case5 d mark inner ps ih =>
      obtain ⟨⟨hmark, hinner, hfeed⟩, hps⟩ := List.forall_mem_cons.1 hlegal
      obtain ⟨copy, hcopy⟩ := ih hps hb
      exact ⟨_, (Passes.quoted d hmark hinner hfeed).append hcopy⟩
  | case6 d ends ps ih =>
      obtain ⟨hends, hps⟩ := List.forall_mem_cons.1 hlegal
      rw [Bool.and_eq_true, decide_eq_true_eq] at hb
      obtain ⟨copy, hcopy⟩ := ih hps hb.2
      obtain ⟨w, -, hw⟩ := exists_passes_ends hends d
      have hcomma : Passes ⟨d, none⟩ ⟨d, none⟩ [','] [','] :=
        Passes.unquoted (c := ',') (by decide) (by decide) (by decide) fun _ => hb.1
      exact ⟨_, (hcomma.append hw).append hcopy⟩

end Piece

theorem passes_blank (hw : allBlank w = true) (hfeed : '\n' ∉ w) (d : Nat) :
    Passes ⟨d, none⟩ ⟨d, none⟩ w w := by
  refine Passes.plain d fun c hc => ?_
  have hb : isBlank c = true := allBlank_iff.1 hw c hc
  refine ⟨not_mem_marks_of_isBlank hb, ?_, fun hn => hfeed (hn ▸ hc)⟩
  rintro rfl
  cases hb

theorem IsName.passes {name : List Char} (h : IsName name) (d : Nat) :
    Passes ⟨d, none⟩ ⟨d, none⟩ name name := by
  refine Passes.plain d fun c hc => ?_
  have hword : isWordChar c = true := List.all_eq_true.1 h.word c hc
  refine ⟨not_mem_marks_of_isWordChar hword, ?_, ?_⟩
  · rintro rfl
    exact absurd hword (by decide)
  · rintro rfl
    exact absurd hword (by decide)

/-! ## Names of parameters -/

/-- The sign behind a name, with what follows it, or nothing. -/
def IsBehindName (s : List Char) : Prop :=
  s = [] ∨ ∃ c r, s = c :: r ∧ (c = ':' ∨ c = '=')

theorem trim_takeWhile_named {name gap : List Char} (hname : IsName name)
    (hgap : allBlank gap = true) (hs : IsBehindName s) :
    trim ((trimEnd (name ++ (gap ++ s))).takeWhile fun c => c ≠ ':' ∧
      c ≠ '=') = name := by
  have hnoblank : NoBlank name :=
    fun c hc => isBlank_of_isWordChar (List.all_eq_true.1 hname.word c hc)
  have hm : ∀ c ∈ name ++ gap, decide (c ≠ ':' ∧ c ≠ '=') = true := by
    intro c hc
    refine decide_eq_true ?_
    rcases List.mem_append.1 hc with hc | hc
    · have hword := not_mem_marks_of_isWordChar (List.all_eq_true.1 hname.word c hc)
      refine ⟨ne_of_not_mem_marks hword (by decide), ?_⟩
      rintro rfl
      exact absurd (List.all_eq_true.1 hname.word _ hc) (by decide)
    · have hb := allBlank_iff.1 hgap c hc
      refine ⟨?_, ?_⟩ <;> rintro rfl <;> cases hb
  rcases hs with rfl | ⟨c, r, rfl, hc⟩
  · have hself : name.takeWhile (fun c => decide (c ≠ ':' ∧ c ≠ '=')) = name :=
      List.takeWhile_eq_self_iff.2 fun c hc => hm c (List.mem_append_left gap hc)
    rw [List.append_nil, trimEnd_append_of_allBlank hgap, hnoblank.trimEnd_eq, hself,
      hnoblank.trim_eq]
  · have hblank : isBlank c = false ∧ decide (c ≠ ':' ∧ c ≠ '=') = false := by
      rcases hc with rfl | rfl <;> decide
    have hself : (name ++ gap).takeWhile (fun c => decide (c ≠ ':' ∧ c ≠ '=')) =
        name ++ gap :=
      List.takeWhile_eq_self_iff.2 hm
    rw [← List.append_assoc, trimEnd_append_cons_of_not hblank.1,
      takeWhile_append_cons_of_not hblank.2, hself, trim_append_of_allBlank hgap,
      hnoblank.trim_eq]

theorem parameterName?_named {name gap : List Char} (hname : IsName name)
    (hw : allBlank w = true) (hgap : allBlank gap = true) (hs : IsBehindName s) :
    parameterName? (w ++ (name ++ (gap ++ s))) = some (String.ofList name) := by
  have htake := trim_takeWhile_named hname hgap hs
  obtain ⟨c, r, rfl⟩ := List.exists_cons_of_ne_nil hname.ne_nil
  have hword : isWordChar c = true := List.all_eq_true.1 hname.word c List.mem_cons_self
  have hhead : ∃ r', trimEnd (c :: r ++ (gap ++ s)) = c :: r' :=
    ⟨_, trimEnd_append_cons_of_not (isBlank_of_isWordChar hword) [] _⟩
  obtain ⟨r', hr'⟩ := hhead
  have hstar : c ≠ '*' ∧ c ≠ '/' := by
    refine ⟨?_, ?_⟩ <;> rintro rfl <;> exact absurd hword (by decide)
  have htrim : trim (w ++ (c :: r ++ (gap ++ s))) = trimEnd (c :: r ++ (gap ++ s)) := by
    rw [trim, trimStart_append_of_allBlank hw, List.cons_append,
      trimStart_cons_of_not (isBlank_of_isWordChar hword)]
  have hmarker : ¬ ((trimEnd (c :: r ++ (gap ++ s))).head? = some '*' ∨
      trimEnd (c :: r ++ (gap ++ s)) = ['/']) := by
    rw [hr']
    rintro (h | h)
    · exact hstar.1 (Option.some_inj.1 h)
    · exact hstar.2 (List.cons.inj h).1
  rw [parameterName?, htrim]
  dsimp only
  rw [if_neg hmarker, htake]
  rfl

theorem parameterName?_slash {gap : List Char} (hw : allBlank w = true)
    (hgap : allBlank gap = true) :
    parameterName? (w ++ '/' :: gap) = none := by
  have htrim : trim (w ++ '/' :: gap) = ['/'] := by
    rw [trim, trimStart_append_of_allBlank hw, trimStart_cons_of_not rfl, ←
      List.singleton_append, trimEnd_append_of_allBlank hgap]
    rfl
  rw [parameterName?, htrim]
  rfl

theorem parameterName?_starred (hw : allBlank w = true) (s : List Char) :
    parameterName? (w ++ '*' :: s) = none := by
  have htrim : (trim (w ++ '*' :: s)).head? = some '*' := by
    have hstar : trimEnd ('*' :: s) = '*' :: trimEnd s :=
      trimEnd_append_cons_of_not (c := '*') rfl [] s
    rw [trim, trimStart_append_of_allBlank hw, trimStart_cons_of_not rfl, hstar]
    rfl
  rw [parameterName?]
  exact if_pos (.inl htrim)

theorem parameterName?_blank (hw : allBlank w = true) : parameterName? w = none := by
  rw [parameterName?, trim_of_allBlank hw]
  rfl

theorem passes_sign (hc : c = ':' ∨ c = '=' ∨ c = '/' ∨ c = '*') :
    Passes .top .top [c] [c] := by
  have hplain : (Nesting.isQuote c = false ∧ Nesting.isOpening c = false ∧
    Nesting.isClosing c = false) ∧
      c ≠ '#' ∧ c ≠ '\n' ∧ ¬ (c = ')' ∨ c = ',') := by
    rcases hc with rfl | rfl | rfl | rfl <;> decide
  obtain ⟨⟨hq, ho, hcl⟩, hhash, hn, hend⟩ := hplain
  have hpass := Passes.unquoted (d := 0) hq hhash hn fun h => absurd h hend
  rw [ho, hcl] at hpass
  exact hpass

namespace Parameter

variable {p : Parameter}

theorem exists_passes_behind {sign : Char} (hsign : sign = ':' ∨ sign = '=')
    {ps : Option (List Piece)} (hps : ∀ e ∈ ps, Piece.AllLegal e) :
    ∃ copy, Passes .top .top (behind sign ps) copy ∧
      (copy = [] ∨ ∃ r, copy = sign :: r) := by
  cases ps with
  | none => exact ⟨[], Passes.nil _, .inl rfl⟩
  | some ps =>
      have hlegal := hps ps rfl
      obtain ⟨copy, hcopy⟩ := Piece.exists_passes hlegal.legal hlegal.balanced
      have hchar : Passes .top .top [sign] [sign] := passes_sign (hsign.imp_right .inl)
      exact ⟨_, hchar.append hcopy, .inr ⟨copy, rfl⟩⟩

/-- The copy of a parameter has its name, whatever blanks stand in front. -/
theorem exists_passes (hp : p.Legal) :
    ∃ copy, Passes .top .top p.text copy ∧ ∀ w, allBlank w = true →
      parameterName? (w ++ copy) = p.name? := by
  cases p with
  | slash gap =>
      obtain ⟨hgap, hfeed⟩ := hp
      have hchar : Passes .top .top ['/'] ['/'] := passes_sign (.inr (.inr (.inl rfl)))
      exact ⟨_, hchar.append (passes_blank hgap hfeed 0),
        fun w hw => parameterName?_slash hw hgap⟩
  | starred rest =>
      have hchar : Passes .top .top ['*'] ['*'] := passes_sign (.inr (.inr (.inr rfl)))
      obtain ⟨copy, hcopy⟩ := Piece.exists_passes hp.legal hp.balanced
      exact ⟨_, hchar.append hcopy, fun w hw => parameterName?_starred hw copy⟩
  | named name gap hint default =>
      obtain ⟨hname, ⟨hgap, hfeed⟩, hhint, hdefault⟩ := hp
      obtain ⟨left, hleft, hcolon⟩ := exists_passes_behind (.inl rfl) hhint
      obtain ⟨right, hright, hequals⟩ := exists_passes_behind (.inr rfl) hdefault
      have hbehind : IsBehindName (left ++ right) := by
        rcases hcolon with rfl | ⟨r, rfl⟩
        · rcases hequals with rfl | ⟨r, rfl⟩
          · exact .inl rfl
          · exact .inr ⟨'=', r, rfl, .inr rfl⟩
        · exact .inr ⟨':', r ++ right, rfl, .inl rfl⟩
      exact ⟨_, (hname.passes 0).append
        ((passes_blank hgap hfeed 0).append (hleft.append hright)),
        fun w hw => parameterName?_named hname hw hgap hbehind⟩

end Parameter

theorem Slot.Legal.exists_passes {s : Slot} (hs : s.Legal) :
    ∃ copy, Passes .top .top s.text copy ∧
      parameterName? copy = s.parameter.bind Parameter.name? := by
  obtain ⟨w, hw, hends⟩ := exists_passes_ends hs.ends 0
  have hlead := hends.append (passes_blank hs.blank hs.feedless 0)
  have hblank : allBlank (w ++ s.lead) = true := by
    rw [allBlank_append, hw, hs.blank]
    rfl
  rw [Slot.text, ← List.append_assoc, Slot.core]
  cases hp : s.parameter with
  | none =>
      exact ⟨_, hlead.append (Passes.nil _), by simpa using parameterName?_blank hblank⟩
  | some p =>
      obtain ⟨copy, hcopy, hname⟩ := Parameter.exists_passes (hs.parameter p hp)
      exact ⟨_, hlead.append hcopy, hname _ hblank⟩

namespace Definition

variable {d : Definition}

/-- The copy of a list is cut where its commas stand. -/
theorem exists_copied_list {first : Slot} {more : List Slot}
    (hslots : ∀ s ∈ first :: more, s.Legal) :
    (Place.inside .top).after (first.text ++ more.flatMap fun s => ',' :: s.text) =
      .inside .top ∧
      parameterNames ((Place.inside .top).copied
        (first.text ++ more.flatMap fun s => ',' :: s.text)) =
        (first :: more).filterMap fun s => s.parameter.bind Parameter.name? := by
  induction more generalizing first with
  | nil =>
      obtain ⟨copy, hcopy, hname⟩ := (hslots first List.mem_cons_self).exists_passes
      have hcut : splitNested .top (copy ++ []) = [copy ++ []] := hcopy.uncut rfl
      rw [List.append_nil] at hcut
      rw [List.flatMap_nil, List.append_nil, hcopy.after_eq, hcopy.copied_eq,
        parameterNames_eq, hcut, List.filterMap_cons, List.filterMap_cons, hname]
      exact ⟨rfl, rfl⟩
  | cons s more ih =>
      obtain ⟨hfirst, hmore⟩ := List.forall_mem_cons.1 hslots
      obtain ⟨copy, hcopy, hname⟩ := hfirst.exists_passes
      obtain ⟨hafter, hnames⟩ := ih hmore
      have hcomma : (Place.inside .top).step ',' = .inside .top ∧
          (Place.inside .top).copy ',' = [','] := ⟨rfl, rfl⟩
      have hcut (t : List Char) : splitNested .top (copy ++ ',' :: t) =
          copy :: splitNested .top t := by
        have hnext := hcopy.uncut (t := ',' :: t) rfl
        rwa [List.append_nil] at hnext
      rw [List.flatMap_cons, List.cons_append, Place.after_append, Place.copied_append,
        hcopy.after_eq, hcopy.copied_eq, Place.after_cons, Place.copied_cons,
        hcomma.1, hcomma.2]
      refine ⟨hafter, ?_⟩
      rw [parameterNames_eq] at hnames ⊢
      rw [List.singleton_append, hcut, List.filterMap_cons, List.filterMap_cons,
        hname, hnames]

theorem exists_read?_list (hd : d.Legal) :
    ∃ copy, (Place.inside .top).read? (d.list ++ d.behind) = some copy ∧
      parameterNames copy = d.names := by
  obtain ⟨hafter, hnames⟩ := exists_copied_list hd.slots
  refine ⟨(Place.inside .top).copied d.list, ?_, hnames⟩
  have hclose : (Place.inside .top).step ')' = .behind ∧
      (Place.inside .top).copy ')' = [] := ⟨rfl, rfl⟩
  rw [Place.read?_append, list, hafter, behind, Place.read?_cons, hclose.1, hclose.2,
    Place.read?_behind]
  simp

end Definition

/-! ## Reading a definition back -/

theorem header?_written {name : List Char} (hne : name ≠ [])
    (hword : name.all isWordChar = true) (s : List Char) :
    header? (name ++ '(' :: s) = some (name, s) := by
  have hparen : isWordChar '(' = false := by decide
  have htake : (name ++ '(' :: s).takeWhile isWordChar = name := by
    rw [takeWhile_append_cons_of_not hparen, List.takeWhile_eq_self_iff]
    exact List.all_eq_true.1 hword
  have hdrop : (name ++ '(' :: s).dropWhile isWordChar = '(' :: s := by
    rw [dropWhile_append_cons_of_not hparen,
      List.dropWhile_eq_nil_iff.2 (List.all_eq_true.1 hword)]
    rfl
  have htrim : trimStart (name ++ '(' :: s) = name ++ '(' :: s := by
    obtain ⟨c, r, rfl⟩ := List.exists_cons_of_ne_nil hne
    exact trimStart_cons_of_not
      (isBlank_of_isWordChar (List.all_eq_true.1 hword c List.mem_cons_self))
  unfold header?
  dsimp only
  rw [htrim, htake, hdrop, if_neg (by simpa using hne)]
  rfl

namespace Definition

variable {d : Definition}

theorem Legal.feed_not_mem_front (hd : d.Legal) : '\n' ∉ d.front := by
  have hname : '\n' ∉ d.name := feed_not_mem_of_all_isWordChar hd.name_word
  rw [front]
  split
  · simp [hd.margin_feedless, hname]
  · simp [hd.margin_feedless, hname]

theorem front_append (d : Definition) (s : List Char) :
    d.front ++ s =
      d.margin ++ ((if d.isAsync then "async def ".toList else "def ".toList) ++
        (d.name ++ '(' :: s)) := by
  rw [front, List.append_assoc, List.append_assoc, List.append_assoc]
  rfl

theorem Legal.indentation_front (hd : d.Legal) (s : List Char) :
    indentation (d.front ++ s) = width d.margin := by
  have hmargin : d.margin.takeWhile isBlank = d.margin :=
    List.takeWhile_eq_self_iff.2 (allBlank_iff.1 hd.margin_blank)
  rw [front_append, indentation]
  split
  · exact congrArg width
      ((takeWhile_append_cons_of_not (c := 'a') rfl d.margin _).trans hmargin)
  · exact congrArg width
      ((takeWhile_append_cons_of_not (c := 'd') rfl d.margin _).trans hmargin)

theorem Legal.definition?_front (hd : d.Legal) (s : List Char) :
    definition? (trimStart (d.front ++ s)) = some (d.isAsync, d.name ++ '(' :: s) := by
  rw [front_append, trimStart_append_of_allBlank hd.margin_blank]
  cases d.isAsync with
  | true => exact definition?_async (List.cons_ne_nil ' ' []) rfl _
  | false => exact definition?_def _

end Definition

/-- A definition is read back as it is written, on one line or on several, and
whether those end in a line feed alone or in a carriage return with it: name,
kind, place and the names of its parameters, without markers and collecting
parameters.  A line that begins inside of an annotation or a default must not look
like a definition further left. -/
theorem definition_read_back {d : Definition} {source : String} (hd : d.Legal)
    (hinner : ∀ l ∈ d.innerLines, Stays (width d.margin) l)
    (hlines : Text.lines source.toList = splitAtFeeds d.text) :
    ofSource? source = some ⟨String.ofList d.name, d.names, d.isAsync, 0,
      width d.margin⟩ := by
  obtain ⟨ls, hsplit⟩ : ∃ ls, splitAtFeeds (d.list ++ d.behind) =
      firstLine (d.list ++ d.behind) :: ls :=
    exists_splitAtFeeds_eq _
  have hfirst := hd.indentation_front (firstLine (d.list ++ d.behind))
  have hfound := hd.definition?_front (firstLine (d.list ++ d.behind))
  have hstay : ∀ l ∈ ls,
      Stays (indentation (d.front ++ firstLine (d.list ++ d.behind))) l := by
    have htail := stays_of_mem_tail (d.linesStay hd hinner)
    rwa [hsplit, List.tail_cons, ← hfirst] at htail
  have hwhole : unlines (firstLine (d.list ++ d.behind) :: ls) = d.list ++ d.behind := by
    rw [← hsplit, unlines_splitAtFeeds]
  obtain ⟨copy, hread, hnames⟩ := d.exists_read?_list hd
  have houtermost := outermost?_first (by rw [hfound]; rfl) hstay
  rw [ofSource?, hlines, Definition.text,
    splitAtFeeds_append_of_not_mem hd.feed_not_mem_front hsplit, ofLines?_eq, houtermost,
    hfirst, Option.bind_some, readAt?, List.getD_cons_zero, hfound, Option.bind_some,
    header?_written hd.name_ne_nil hd.name_word, Option.bind_some, signature?,
    List.drop_succ_cons, List.drop_zero,
    hwhole, hread, Option.map_some, hnames]

/-- A definition on several lines, with comments between them and with every
kind of parameter. -/
def folded : Definition where
  margin := "    ".toList
  isAsync := true
  name := "f".toList
  first := ⟨[⟨"  ".toList, some " the names".toList⟩], "        ".toList,
    some (.named "a".toList [] none none)⟩
  more := [
    ⟨[⟨" ".toList, some " it's (open".toList⟩], "        ".toList,
      some (.named "b".toList []
        (some (Piece.spell " dict[str" ++ .comma [⟨[], none⟩] :: Piece.spell "    int] "))
        (some (Piece.spell " " ++ [.quoted '"' ",)".toList])))⟩,
    ⟨[], " ".toList, some (.slash [])⟩,
    ⟨[], " ".toList, some (.starred [])⟩,
    ⟨[], " ".toList, some (.named "c".toList [] none (some (Piece.spell "1")))⟩,
    ⟨[], " ".toList, some (.starred (Piece.spell "*kwargs"))⟩,
    ⟨[⟨[], none⟩], "    ".toList, none⟩]
  tail := " -> None:".toList
  body := ["        def g(x): pass".toList]

theorem definition_read_back_folded :
    let source := String.ofList <| unlines [
      "    async def f(  # the names".toList,
      "        a, # it's (open".toList,
      "        b: dict[str,".toList,
      "    int] = \",)\", /, *, c=1, **kwargs,".toList,
      "    ) -> None:".toList,
      "        def g(x): pass".toList]
    ofSource? source = some ⟨"f", ["a", "b", "c"], true, 0, 4⟩ := by
  intro source
  have hlines : Text.lines source.toList = splitAtFeeds folded.text := by
    rw [String.toList_ofList]
    rfl
  exact definition_read_back (by decide +kernel) (by decide +kernel) hlines

/-- A line that begins inside of an annotation can look like a definition further left,
and that one is taken. -/
theorem inner_line_taken :
    let d : Definition := {
      margin := "    ".toList, isAsync := false, name := "f".toList,
      first := ⟨[], [], some (.named "a".toList []
        (some (Piece.spell " X[b" ++ .comma [⟨[], none⟩] :: Piece.spell "def c(d)]"))
        none)⟩,
      more := [], tail := ":".toList, body := ["        pass".toList] }
    d.Legal ∧ d.text = "    def f(a: X[b,\ndef c(d)]):\n        pass".toList ∧
      ofSource? (String.ofList d.text) = some ⟨"c", ["d"], false, 1, 0⟩ := by
  decide +kernel

end NotebookService.Signature
