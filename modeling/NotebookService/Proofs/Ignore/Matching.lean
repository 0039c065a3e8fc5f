/-
# `NotebookService.Proofs.Ignore.Matching` — what a pattern matches

A pattern means something before it is matched.  `Written` says which tokens are written
in it, `Token.StandsFor` which pieces of a text a token stands for, and a pattern
matches a text that can be cut into pieces that its tokens stand for, in order.

A scan does not try all the ways of cutting.  It keeps one place to go back to, behind
the last run, and when it comes to another run it forgets the one before.  Nothing is
lost: whatever the forgotten run could still take, the new run can take instead, since
between the two there are only tokens for one character each
(`Scan.Coherent.matches_anyRun`).  So a round changes neither that the scan is coherent
nor whether it can still succeed, and the answer in the end is right.
-/
import Mathlib.Data.List.Forall2
import NotebookService.Ignore.Pattern

namespace NotebookService.Ignore

/-! ## How patterns are written -/

/-- What stands between the brackets of a class: something, with a closing bracket at
most in the first place. -/
structure IsClass (body : List Char) : Prop where
  ne_nil : body ≠ []
  closing : ']' ∉ body.tail

/-- The members of a class.  A dash between two characters makes a range of them. -/
def members : List Char → List CharRange
  | [] => []
  | a :: '-' :: b :: s => ⟨a, b⟩ :: members s
  | a :: s => ⟨a, a⟩ :: members s

/-- A class begins behind an opening bracket and is closed. -/
def Closes (p : List Char) : Prop :=
  ∃ body rest, IsClass body ∧
    (p = '!' :: (body ++ ']' :: rest) ∨ body.head? ≠ some '!' ∧ p = body ++ ']' :: rest)

/-- The tokens that are written in a pattern. -/
inductive Written : List Char → List Token → Prop
  | nil : Written [] []
  | anyRun {p : List Char} {ts : List Token} : Written p ts →
      Written ('*' :: p) (.anyRun :: ts)
  | anyChar {p : List Char} {ts : List Token} : Written p ts →
      Written ('?' :: p) (.anyChar :: ts)
  | inside {body p : List Char} {ts : List Token} : IsClass body → body.head? ≠ some '!' →
      Written p ts →
      Written ('[' :: (body ++ ']' :: p)) (.oneOf false (members body) :: ts)
  | outside {body p : List Char} {ts : List Token} : IsClass body → Written p ts →
      Written ('[' :: '!' :: (body ++ ']' :: p)) (.oneOf true (members body) :: ts)
  | bracket {p : List Char} {ts : List Token} : ¬ Closes p → Written p ts →
      Written ('[' :: p) (.char '[' :: ts)
  | char {c : Char} {p : List Char} {ts : List Token} : c ∉ ['*', '?', '['] →
      Written p ts →
      Written (c :: p) (.char c :: ts)

/-! ## Classes are read to their first closing bracket -/

/-- The text that can still be in the class, where a closing bracket in the first
place is a member. -/
def behindFirst (first : Bool) (body : List Char) : List Char :=
  if first then body.tail else body

theorem not_mem_behindFirst_cons {first : Bool} {a : Char} {s : List Char} :
    ']' ∉ behindFirst first (a :: s) ↔
      ¬ (decide (a = ']') && !first) = true ∧ ']' ∉ s := by
  cases first with
  | true => simp [behindFirst]
  | false => simp [behindFirst, eq_comm]

theorem readRanges?_append {first : Bool} {body : List Char} (rest : List Char)
    (hne : first = true → body ≠ []) (hc : ']' ∉ behindFirst first body) :
    readRanges? first (body ++ ']' :: rest) = some (members body, rest) := by
  fun_induction members body generalizing first with
  | case1 =>
    cases first with
    | true => exact absurd rfl (hne rfl)
    | false =>
      rw [List.nil_append, readRanges?.eq_def]
      rfl
  | case2 a b s ih =>
    obtain ⟨ha, hs⟩ := not_mem_behindFirst_cons.1 hc
    have hb : b ≠ ']' := by
      rintro rfl
      exact hs (by simp)
    have hr : readRanges? false (s ++ ']' :: rest) = some (members s, rest) :=
      ih (fun h => absurd h Bool.false_ne_true) fun h =>
        hs (List.mem_cons_of_mem _ (List.mem_cons_of_mem _ h))
    show readRanges? first (a :: '-' :: b :: (s ++ ']' :: rest)) = _
    rw [readRanges?, if_neg ha, if_neg hb, hr]
    rfl
  | case3 a s hd ih =>
    obtain ⟨ha, hs⟩ := not_mem_behindFirst_cons.1 hc
    have hr : readRanges? false (s ++ ']' :: rest) = some (members s, rest) :=
      ih (fun h => absurd h Bool.false_ne_true) hs
    show readRanges? first (a :: (s ++ ']' :: rest)) = _
    by_cases hdash : s = ['-']
    · -- the dash has only the closing bracket behind it
      cases hdash
      rw [List.cons_append, List.nil_append] at hr ⊢
      rw [readRanges?, if_neg ha, if_pos rfl, hr]
      rfl
    · rw [readRanges?, if_neg ha, hr]
      · rfl
      · intro d t he
        cases s with
        | nil => cases he
        | cons x s =>
          cases s with
          | nil =>
            cases he
            exact hdash rfl
          | cons y s =>
            cases he
            exact hd _ _ rfl

theorem exists_of_readRanges? {first : Bool} {s rest : List Char} {rs : List CharRange}
    (h : readRanges? first s = some (rs, rest)) :
    ∃ body, s = body ++ ']' :: rest ∧ (first = true → body ≠ []) ∧
      ']' ∉ behindFirst first body := by
  fun_induction readRanges? first s generalizing rs rest with
  | case1 => cases h
  | case2 first c s hc =>
    cases h
    simp only [Bool.and_eq_true, decide_eq_true_eq, Bool.not_eq_true'] at hc
    obtain ⟨rfl, rfl⟩ := hc
    exact ⟨[], rfl, fun h => absurd h Bool.false_ne_true, List.not_mem_nil⟩
  | case3 first c hc t ih =>
    obtain ⟨⟨qs, r⟩, hr, he⟩ := Option.map_eq_some_iff.1 h
    cases he
    obtain ⟨body, hs, -, hb⟩ := ih hr
    exact ⟨c :: body, congrArg (c :: ·) hs, fun _ => List.cons_ne_nil _ _,
      not_mem_behindFirst_cons.2 ⟨hc, hb⟩⟩
  | case4 first c hc d t hd ih =>
    obtain ⟨⟨qs, r⟩, hr, he⟩ := Option.map_eq_some_iff.1 h
    cases he
    obtain ⟨body, rfl, -, hb⟩ := ih hr
    refine ⟨c :: '-' :: d :: body, rfl, fun _ => List.cons_ne_nil _ _,
      not_mem_behindFirst_cons.2 ⟨hc, ?_⟩⟩
    have hb : ']' ∉ body := hb
    simp [hb, Ne.symm hd]
  | case5 first c hc s hd ih =>
    obtain ⟨⟨qs, r⟩, hr, he⟩ := Option.map_eq_some_iff.1 h
    cases he
    obtain ⟨body, rfl, -, hb⟩ := ih hr
    exact ⟨c :: body, rfl, fun _ => List.cons_ne_nil _ _,
      not_mem_behindFirst_cons.2 ⟨hc, hb⟩⟩

theorem IsClass.readRanges? {body : List Char} (h : IsClass body) (rest : List Char) :
    Ignore.readRanges? true (body ++ ']' :: rest) = some (members body, rest) :=
  readRanges?_append rest (fun _ => h.ne_nil) h.closing

/-- A class is read exactly when it is closed. -/
theorem exists_isClass_of_readRanges? {s rest : List Char} {rs : List CharRange}
    (h : readRanges? true s = some (rs, rest)) :
    ∃ body, IsClass body ∧ s = body ++ ']' :: rest ∧ rs = members body := by
  obtain ⟨body, rfl, hne, hc⟩ := exists_of_readRanges? h
  have hb : IsClass body := ⟨hne rfl, hc⟩
  rw [hb.readRanges?] at h
  cases h
  exact ⟨body, hb, rfl, rfl⟩

theorem readClass?_of_head {s : List Char} (h : s.head? ≠ some '!') :
    readClass? s = (readRanges? true s).map fun (rs, rest) =>
      (.oneOf false rs, rest) := by
  unfold readClass?
  split
  · exact absurd rfl h
  · rfl

theorem IsClass.readClass?_inside {body : List Char} (h : IsClass body)
    (hn : body.head? ≠ some '!') (rest : List Char) :
    readClass? (body ++ ']' :: rest) = some (.oneOf false (members body), rest) := by
  have hh : (body ++ ']' :: rest).head? ≠ some '!' := by
    rwa [List.head?_append_of_ne_nil _ h.ne_nil]
  rw [readClass?_of_head hh, h.readRanges?]
  rfl

theorem IsClass.readClass?_outside {body : List Char} (h : IsClass body)
    (rest : List Char) :
    readClass? ('!' :: (body ++ ']' :: rest)) =
      some (.oneOf true (members body), rest) := by
  rw [readClass?, h.readRanges?]
  rfl

theorem exists_of_readClass? {s rest : List Char} {t : Token}
    (h : readClass? s = some (t, rest)) :
    ∃ body, IsClass body ∧
      (s = '!' :: (body ++ ']' :: rest) ∧ t = .oneOf true (members body) ∨
        body.head? ≠ some '!' ∧ s = body ++ ']' :: rest ∧
        t = .oneOf false (members body)) := by
  by_cases hh : s.head? = some '!'
  · obtain ⟨u, rfl⟩ := List.head?_eq_some_iff.1 hh
    obtain ⟨⟨rs, r⟩, hr, he⟩ := Option.map_eq_some_iff.1 h
    cases he
    obtain ⟨body, hb, rfl, rfl⟩ := exists_isClass_of_readRanges? hr
    exact ⟨body, hb, .inl ⟨rfl, rfl⟩⟩
  · rw [readClass?_of_head hh] at h
    obtain ⟨⟨rs, r⟩, hr, he⟩ := Option.map_eq_some_iff.1 h
    cases he
    obtain ⟨body, hb, rfl, rfl⟩ := exists_isClass_of_readRanges? hr
    rw [List.head?_append_of_ne_nil _ hb.ne_nil] at hh
    exact ⟨body, hb, .inr ⟨hh, rfl, rfl⟩⟩

theorem readClass?_eq_none_iff {s : List Char} : readClass? s = none ↔ ¬ Closes s := by
  rw [Option.eq_none_iff_forall_not_mem]
  constructor
  · rintro hn ⟨body, rest, hb, rfl | ⟨hh, rfl⟩⟩
    · exact hn _ (hb.readClass?_outside rest)
    · exact hn _ (hb.readClass?_inside hh rest)
  · rintro hn ⟨t, rest⟩ hr
    obtain ⟨body, hb, ⟨hs, -⟩ | ⟨hh, hs, -⟩⟩ := exists_of_readClass? hr
    · exact hn ⟨body, rest, hb, .inl hs⟩
    · exact hn ⟨body, rest, hb, .inr ⟨hh, hs⟩⟩

/-! ## Every pattern is written in one way -/

theorem tokens_bracket_of_some {s rest : List Char} {t : Token}
    (h : readClass? s = some (t, rest)) :
    tokens ('[' :: s) = t :: tokens rest := by
  rw [tokens]
  split
  · rename_i he
    rw [h] at he
    cases he
    rfl
  · rename_i he
    rw [h] at he
    cases he

theorem tokens_bracket_of_none {s : List Char} (h : readClass? s = none) :
    tokens ('[' :: s) = .char '[' :: tokens s := by
  rw [tokens]
  split
  · rename_i he
    rw [h] at he
    cases he
  · rfl

theorem written_tokens (p : List Char) : Written p (tokens p) := by
  fun_induction tokens p with
  | case1 => exact .nil
  | case2 s ih => exact .anyRun ih
  | case3 s ih => exact .anyChar ih
  | case4 s t rest h ih =>
    obtain ⟨body, hb, ⟨rfl, rfl⟩ | ⟨hh, rfl, rfl⟩⟩ := exists_of_readClass? h
    · exact .outside hb ih
    · exact .inside hb hh ih
  | case5 s h ih => exact .bracket (readClass?_eq_none_iff.1 h) ih
  | case6 c s hr ho hb ih => exact .char (by simpa using ⟨hr, ho, hb⟩) ih

theorem Written.tokens_eq {p : List Char} {ts : List Token} (h : Written p ts) :
    tokens p = ts := by
  induction h with
  | nil => rw [tokens]
  | anyRun _ ih => rw [tokens, ih]
  | anyChar _ ih => rw [tokens, ih]
  | inside hb hh _ ih => rw [tokens_bracket_of_some (hb.readClass?_inside hh _), ih]
  | outside hb _ ih => rw [tokens_bracket_of_some (hb.readClass?_outside _), ih]
  | bracket hc _ ih => rw [tokens_bracket_of_none (readClass?_eq_none_iff.2 hc), ih]
  | char hc _ ih =>
    simp only [List.mem_cons, List.not_mem_nil, or_false, not_or] at hc
    rw [tokens, ih]
    · exact hc.1
    · exact hc.2.1
    · exact hc.2.2

theorem written_iff {p : List Char} {ts : List Token} : Written p ts ↔ ts = tokens p :=
  ⟨fun h => h.tokens_eq.symm, fun h => h ▸ written_tokens p⟩

/-! ## Pieces -/

/-- The pieces of a text that a token stands for. -/
def Token.StandsFor : Token → List Char → Prop
  | .anyRun, _ => True
  | .anyChar, piece => ∃ x, piece = [x]
  | .char c, piece => piece = [c]
  | .oneOf negated ranges, piece =>
    ∃ x, piece = [x] ∧ if negated then ∀ r ∈ ranges, ¬ (r.first ≤ x ∧ x ≤ r.last)
      else ∃ r ∈ ranges, r.first ≤ x ∧ x ≤ r.last

variable {t : Token} {ts us : List Token} {s text : List Char} {c : Char}

theorem Token.standsFor_iff (ht : t ≠ .anyRun) {piece : List Char} :
    t.StandsFor piece ↔ ∃ x, piece = [x] ∧ t.accepts x = true := by
  cases t with
  | anyRun => exact absurd rfl ht
  | anyChar => simp [StandsFor, accepts]
  | char c => simp [StandsFor, accepts]
  | oneOf negated ranges =>
    refine exists_congr fun x => and_congr_right fun _ => ?_
    cases negated with
    | false => simp [accepts, CharRange.contains]
    | true => simp [accepts, CharRange.contains]

theorem ne_anyRun_of_accepts (h : t.accepts c = true) : t ≠ .anyRun := by
  rintro rfl
  cases h

/-- A text is matched when it can be cut into pieces that the tokens stand for. -/
theorem matches_iff_pieces :
    Matches ts text ↔ ∃ pieces, pieces.flatten = text ∧
      List.Forall₂ Token.StandsFor ts pieces := by
  constructor
  · intro h
    induction h with
    | nil => exact ⟨[], rfl, .nil⟩
    | run piece _ ih =>
      obtain ⟨pieces, rfl, hp⟩ := ih
      exact ⟨piece :: pieces, rfl, .cons trivial hp⟩
    | @one t ts c s ha _ ih =>
      obtain ⟨pieces, rfl, hp⟩ := ih
      have ht : t.StandsFor [c] :=
        (Token.standsFor_iff (ne_anyRun_of_accepts ha)).2 ⟨c, rfl, ha⟩
      exact ⟨[c] :: pieces, rfl, .cons ht hp⟩
  · rintro ⟨pieces, rfl, hp⟩
    induction hp with
    | nil => exact .nil
    | @cons t piece ts pieces ht _ ih =>
      by_cases hr : t = .anyRun
      · cases hr
        exact .run piece ih
      · obtain ⟨x, rfl, ha⟩ := (Token.standsFor_iff hr).1 ht
        exact .one ha ih

/-! ## Matching from the front -/

theorem matches_nil_iff : Matches [] text ↔ text = [] := by
  constructor
  · rintro ⟨⟩
    rfl
  · rintro rfl
    exact .nil

theorem matches_cons_iff (ht : t ≠ .anyRun) :
    Matches (t :: ts) text ↔ ∃ c s, text = c :: s ∧ t.accepts c = true ∧
      Matches ts s := by
  constructor
  · intro h
    cases h with
    | run piece h => exact absurd rfl ht
    | one ha h => exact ⟨_, _, rfl, ha, h⟩
  · rintro ⟨c, s, rfl, ha, h⟩
    exact .one ha h

theorem matches_anyRun_iff :
    Matches (.anyRun :: ts) text ↔ ∃ s, s <:+ text ∧ Matches ts s := by
  constructor
  · intro h
    cases h with
    | run piece h => exact ⟨_, List.suffix_append piece _, h⟩
    | one ha h => cases ha
  · rintro ⟨s, ⟨piece, rfl⟩, h⟩
    exact .run piece h

theorem matches_anyRun_nil_iff : Matches (.anyRun :: ts) [] ↔ Matches ts [] := by
  simp [matches_anyRun_iff]

theorem matches_anyRun_iff_tail :
    Matches (.anyRun :: ts) text ↔ Matches ts text ∨
      Matches (.anyRun :: ts) text.tail := by
  cases text with
  | nil =>
    rw [List.tail_nil, matches_anyRun_nil_iff, or_self]
  | cons c text =>
    simp only [matches_anyRun_iff, List.suffix_cons_iff, List.tail_cons, or_and_right,
      exists_or, exists_eq_left]

theorem matches_anyRun_anyRun_iff :
    Matches (.anyRun :: .anyRun :: ts) text ↔ Matches (.anyRun :: ts) text := by
  simp only [matches_anyRun_iff]
  constructor
  · rintro ⟨s, hs, u, hu, h⟩
    exact ⟨u, hu.trans hs, h⟩
  · rintro ⟨s, hs, h⟩
    exact ⟨s, hs, s, List.suffix_refl s, h⟩

theorem matches_nil_text_iff : Matches ts [] ↔ ts.all (· = .anyRun) = true := by
  induction ts with
  | nil => simp [matches_nil_iff]
  | cons t ts ih =>
    by_cases ht : t = .anyRun
    · simp [ht, matches_anyRun_iff, ← ih]
    · simp [ht, matches_cons_iff ht]

/-- Tokens for one character each take as many characters as they are. -/
theorem Matches.drop (hp : Token.anyRun ∉ us) (h : Matches (us ++ ts) text) :
    Matches ts (text.drop us.length) := by
  induction us generalizing text with
  | nil => exact h
  | cons t us ih =>
    obtain ⟨ht, hp⟩ := not_or.1 (mt List.mem_cons.2 hp)
    obtain ⟨c, s, rfl, -, h⟩ := (matches_cons_iff (Ne.symm ht)).1 h
    exact ih hp h

/-! ## Scans -/

namespace Scan

variable {s s' : Scan}

/-- The scan has come from its last try to where it stands by tokens for one character
each, and the next try begins one character behind the last. -/
def Coherent (s : Scan) : Prop :=
  ∀ ts text, s.retry = some (ts, text) → ∃ us taken,
    ts = us ++ s.tokens ∧ .anyRun ∉ us ∧ taken.length = us.length ∧
    text = (taken ++ s.text).tail

/-- The text is matched from where the scan stands, or by one of the
tries that are left. -/
def CanMatch (s : Scan) : Prop :=
  Matches s.tokens s.text ∨ ∃ ts text, s.retry = some (ts, text) ∧
    Matches (.anyRun :: ts) text

theorem coherent_ofText (ts : List Token) (text : List Char) :
    (ofText ts text).Coherent := nofun

theorem canMatch_ofText : (ofText ts text).CanMatch ↔ Matches ts text :=
  or_iff_left (by rintro ⟨_, _, ⟨⟩, _⟩)

theorem coherent_again (ts : List Token) (text : List Char) :
    Coherent ⟨ts, text, some (ts, text.tail)⟩ := by
  rintro _ _ ⟨⟩
  exact ⟨[], [], rfl, List.not_mem_nil, rfl, rfl⟩

/-- What one of the tries that are left can match, a run can that stands in front of the
tokens that are left: what the last run would take more goes to that one. -/
theorem Coherent.matches_anyRun (h : s.Coherent) (hr : s.retry = some (ts, text))
    (hm : Matches (.anyRun :: ts) text) : Matches (.anyRun :: s.tokens) s.text := by
  obtain ⟨us, taken, rfl, hus, hl, rfl⟩ := h ts text hr
  obtain ⟨u, hu, hm⟩ := matches_anyRun_iff.1 hm
  refine matches_anyRun_iff.2 ⟨u.drop us.length, ?_, hm.drop hus⟩
  -- the later try begins in what the first one has taken or behind it, so it
  -- ends further back
  obtain ⟨v, hv⟩ := hu.trans (List.tail_suffix _)
  have hd : s.text = (v ++ u).drop us.length := by
    rw [hv, ← hl, List.drop_left]
  rw [hd, List.drop_append]
  exact (List.drop_suffix_drop_left u (Nat.sub_le us.length v.length)).trans
    (List.suffix_append _ _)

theorem eq_of_again {b : Bool} (h : s.again = .error b) : b = false ∧ s.retry = none := by
  obtain ⟨ts, text, retry⟩ := s
  cases retry with
  | none =>
    cases h
    exact ⟨rfl, rfl⟩
  | some r => cases h

/-- The next try finds what the tries that are left can find. -/
theorem coherent_of_again (h : s.again = .ok s') : s'.Coherent ∧
    (s'.CanMatch ↔ ∃ ts text, s.retry = some (ts, text) ∧
      Matches (.anyRun :: ts) text) := by
  obtain ⟨ts, text, retry⟩ := s
  cases retry with
  | none => cases h
  | some r =>
    obtain ⟨us, u⟩ := r
    cases h
    refine ⟨coherent_again us u, ?_⟩
    simp [CanMatch, ← matches_anyRun_iff_tail]

/-- One round: the scan stays coherent, and it can match after the round if and only
if it could before. -/
theorem Coherent.next (h : s.Coherent) (hs : s.next = .ok s') :
    s'.Coherent ∧ (s'.CanMatch ↔ s.CanMatch) := by
  rcases s.next_cases with ⟨-, hn⟩ | ⟨ts, c, text, hts, htext, hn⟩ | ⟨t, ts, c, text, hts,
    htext, ha, hn⟩ |
    ⟨-, hstuck, hn⟩ <;> rw [hn] at hs
  · cases hs
  · -- a run is reached, and the one before it is forgotten
    cases hs
    refine ⟨coherent_again ts (c :: text), ?_⟩
    have hnew : CanMatch ⟨ts, c :: text, some (ts, text)⟩ ↔ Matches s.tokens s.text := by
      rw [hts, htext, matches_anyRun_iff_tail]
      simp [CanMatch]
    rw [hnew]
    refine ⟨.inl, ?_⟩
    rintro (hm | ⟨us, u, hr, hm⟩)
    · exact hm
    · have hm := h.matches_anyRun hr hm
      rw [hts] at hm ⊢
      exact matches_anyRun_anyRun_iff.1 hm
  · cases hs
    have ht := ne_anyRun_of_accepts ha
    refine ⟨?_, or_congr ?_ Iff.rfl⟩
    · intro us u hr
      obtain ⟨vs, taken, rfl, hv, hl, rfl⟩ := h us u hr
      refine ⟨vs ++ [t],
        taken ++ [c], by simp [hts], by simp [hv, ht.symm], by simp [hl], ?_⟩
      rw [htext, List.append_assoc]
      rfl
    · rw [hts, htext, matches_cons_iff ht]
      simp [ha]
  · obtain ⟨hc, hm⟩ := coherent_of_again hs
    exact ⟨hc, hm.trans (or_iff_right hstuck).symm⟩

theorem Coherent.answer_of_next (h : s.Coherent) {b : Bool} (hs : s.next = .error b) :
    b = true ↔ s.CanMatch := by
  rcases s.next_cases with ⟨htext, hn⟩ | ⟨ts, c, text, -, -, hn⟩ | ⟨t, ts, c, text,
    -, -, -, hn⟩ |
    ⟨-, hstuck, hn⟩ <;> rw [hn] at hs
  · cases hs
    rw [← matches_nil_text_iff, ← htext]
    refine ⟨.inl, ?_⟩
    rintro (hm | ⟨us, u, hr, hm⟩)
    · exact hm
    · have hm := h.matches_anyRun hr hm
      rw [htext] at hm ⊢
      exact matches_anyRun_nil_iff.1 hm
  · cases hs
  · cases hs
  · obtain ⟨rfl, hr⟩ := eq_of_again hs
    refine iff_of_false Bool.false_ne_true ?_
    rintro (hm | ⟨us, u, hu, -⟩)
    · exact hstuck hm
    · rw [hr] at hu
      cases hu

theorem Coherent.answer_iff (h : s.Coherent) : s.answer = true ↔ s.CanMatch := by
  fun_induction answer s with
  | case1 s b hs => exact h.answer_of_next hs
  | case2 s s' hs ih =>
    obtain ⟨hc, hm⟩ := h.next hs
    exact (ih hc).trans hm

/-! ## Scans end -/

/-- The scan after some rounds, or the answer in which it has ended. -/
def after : Nat → Scan → Except Bool Scan
  | 0, s => .ok s
  | n + 1, s =>
    match s.next with
    | .error b => .error b
    | .ok s' => after n s'

theorem after_of_roundsLeft_lt {n : Nat} (hn : s.roundsLeft < n) :
    s.after n = .error s.answer := by
  induction n generalizing s with
  | zero => exact absurd hn (Nat.not_lt_zero _)
  | succ n ih =>
    rw [after, answer]
    split
    · rename_i hs
      rw [hs]
    · rename_i s' hs
      rw [hs]
      exact ih (by have := roundsLeft_next hs; omega)

/-- With so many runs among its tokens, the scan of a text of this length
takes no more rounds. -/
def roundsBound (runs length : Nat) : Nat :=
  (runs * (length + 1)) * (length + 1) + length + 1

theorem after_ofText (ts : List Token) (text : List Char) :
    (ofText ts text).after (roundsBound (ts.count .anyRun) text.length) =
      .error (accepted ts text) := by
  refine after_of_roundsLeft_lt ?_
  simp [roundsLeft, runsLeft, triesLeft, widest, ofText, roundsBound]

end Scan

/-! ## The meaning of a pattern -/

theorem accepted_iff : accepted ts text = true ↔ Matches ts text :=
  (Scan.coherent_ofText ts text).answer_iff.trans Scan.canMatch_ofText

/-- A pattern is written with one list of tokens, and it matches a text if and only if
the text can be cut into pieces that these tokens stand for, one piece for each.  The
scan that decides this ends, and in no more than so many rounds. -/
theorem matchesPattern_iff_pieces (pattern text : String) :
    ∃ ts, (∀ us, Written pattern.toList us ↔ us = ts) ∧
      (matchesPattern pattern text = true ↔
        ∃ pieces, pieces.flatten = text.toList ∧ List.Forall₂ Token.StandsFor ts pieces) ∧
      (Scan.ofText ts text.toList).after
      (Scan.roundsBound (ts.count .anyRun) text.toList.length) =
        .error (matchesPattern pattern text) := by
  refine ⟨tokens pattern.toList, fun us => written_iff, ?_, Scan.after_ofText _ _⟩
  rw [matchesPattern, accepted_iff, matches_iff_pieces]

/-- A class from a closing bracket to `a`, and a bracket that opens none. -/
example : matchesPattern "[]-a]*[" "_x[y[" = true := by decide +kernel

end NotebookService.Ignore
