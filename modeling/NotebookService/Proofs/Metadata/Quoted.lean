/-
# `NotebookService.Proofs.Metadata.Quoted` — which quoted strings are read back

A quoted string stands behind a key, as an item of a block sequence, or between
the brackets of a flow sequence.  In the first two places its line holds nothing
else that is quoted, and what `Quoting` says of the comment stripper decides
whether it is read back.

A flow sequence has two more traps.  The stripper does not take a quote directly behind
the bracket for one, and the splitter, which cuts at the commas, takes an escaped quote
for the end of its string.  Both can only tear strings apart, and a torn string has no
reading: if the parts are read at all, then the first part ends where the first string
does (`first_of_readItems`), and so with all of them (`eq_flowText_of_readItems`).
-/
import NotebookService.Proofs.Metadata.Quoting
import NotebookService.Proofs.Metadata.Result
import NotebookService.Proofs.Metadata.Flow

namespace NotebookService.Metadata

open NotebookService.Text

/-! ## Quotations -/

/-- A string and the way in which it is quoted. -/
structure Quotation where
  quoting : Quoting
  content : String
  deriving DecidableEq, Repr

namespace Quotation

def written (w : Quotation) : List Char := w.quoting.quoted w.content.toList

/-- What its reader gives for it. -/
def value (w : Quotation) : Value := .str w.content

/-- The comment stripper leaves it whole. -/
def isKept (w : Quotation) : Bool := w.quoting.keeps w.content.toList

/-- What the comment stripper leaves of it behind a space. -/
def left (w : Quotation) : List Char := uncommented true none w.written

theorem exists_left (w : Quotation) : ∃ s, w.left = w.quoting.mark :: s := by
  rw [left, written, Quoting.quoted, Quoting.uncommented_mark]
  exact ⟨_, rfl⟩

theorem readInline_left (w : Quotation) :
    readInline w.left = if w.isKept then .ok w.value else .error .unterminatedString := by
  rw [left, written, Quoting.readInline_uncommented, String.ofList_toList]
  rfl

end Quotation

/-! ## Lines -/

variable {key : String} {c : Char} {s t : List Char} {n d : Nat}

theorem readInline_trimEnd (s : List Char) : readInline (trimEnd s) = readInline s := by
  rw [readInline, readInline, trim_trimEnd]

theorem exists_uncommented_cons (hc : c ≠ '#') (b : Bool) (t : List Char) :
    ∃ s, uncommented b none (c :: t) = c :: s := by
  rw [uncommented, if_neg (by simp [hc])]
  split
  · exact ⟨_, rfl⟩
  · exact ⟨_, rfl⟩

theorem readRows_of_readEntry {row : Row} {rest : List Row}
    {x : Except Refusal (String × Value)} (hi : row.isItem = false)
    (h : (readEntry row.indent row rest).result = x.map fun e => (e, [])) :
    readRows (row :: rest) = x.map fun e => [e] := by
  rw [readRows_cons, hi, if_neg Bool.false_ne_true, result_readMapping_cons,
    if_neg (by simp [hi]), if_neg (Nat.lt_irrefl _), h]
  cases x with
  | error r => rfl
  | ok e =>
      show Except.bind (Except.map _ (readMapping row.indent []).result) _ = _
      rw [result_readMapping_nil]
      rfl

theorem rowsFrom_entry (hk : IsWord key)
    (ht : ¬ allBlank (uncommented true none t) = true) (n : Nat) :
    rowsFrom n [key.toList ++ ':' :: ' ' :: t] =
      .ok [⟨n, 0, key.toList ++ ':' :: ' ' :: trimEnd (uncommented true none t)⟩] := by
  have h := rowOfLine_headed n 0 hk.rowText hk.noComment ht
  simp only [List.replicate_zero, List.nil_append, List.append_assoc,
    List.cons_append] at h
  rw [rowsFrom_cons, h]
  rfl

theorem result_readEntry_inline (hk : IsWord key) (hb : isBlank c = false) (n d : Nat)
    (s : List Char) (rest : List Row) :
    (readEntry d ⟨n, d, key.toList ++ ':' :: ' ' :: trimEnd (c :: s)⟩ rest).result =
      ((readInline (c :: s)).mapError fun f => ⟨n, f⟩).map fun v =>
        ((keyText key, v), rest) := by
  have hs := hk.splitKey?_append (t := ' ' :: trimEnd (c :: s)) (.inr rfl)
  rw [trim_cons_of_isBlank rfl, trim_trimEnd, trim_cons_of_not hb] at hs
  have hne : (trimEnd (c :: s)).isEmpty = false := by
    rw [List.isEmpty_eq_false_iff, ne_eq, trimEnd_eq_nil]
    simp [hb]
  simp only [result_readEntry, hs, hk.readKey_eq, hne, readInline_trimEnd, Row.inline]
  rfl

theorem read_entry (hk : IsWord key) (hb : isBlank c = false) (hc : c ≠ '#')
    (t : List Char) (n : Nat) :
    read n [key ++ ": " ++ String.ofList (c :: t)] =
      ((readInline (uncommented true none (c :: t))).mapError fun f => ⟨n, f⟩).map
        fun v => ⟨[(keyText key, v)]⟩ := by
  have hl : (key ++ ": " ++ String.ofList (c :: t)).toList =
      key.toList ++ ':' :: ' ' :: c :: t := by simp
  obtain ⟨s, hs⟩ := exists_uncommented_cons hc true t
  have hr := rowsFrom_entry hk (t := c :: t) (by simp [hs, hb]) n
  have he := result_readEntry_inline hk hb n 0 s []
  rw [read_eq, List.map_singleton, hl, hr, hs, Except.bind,
    readRows_of_readEntry
      (x := (readInline (c :: s)).mapError (fun f => ⟨n, f⟩) |>.map
        fun v => (keyText key, v))
      (hk.isItem_append _ _ _) ?_]
  · cases readInline (c :: s) <;> rfl
  · show (readEntry 0 _ []).result = _
    rw [he]
    cases readInline (c :: s) <;> rfl

/-! ## Block sequences -/

/-- The quotation as an item, its dash at column `d`. -/
def itemLine (d : Nat) (w : Quotation) : String :=
  String.ofList (List.replicate d ' ' ++ '-' :: ' ' :: w.written)

/-- The rows of such lines. -/
def itemRows (n d : Nat) : List Quotation → List Row
  | [] => []
  | w :: ws => ⟨n, d, '-' :: ' ' :: trimEnd w.left⟩ :: itemRows (n + 1) d ws

/-- All of the values, or the first line whose closing mark is cut off. -/
def outcome (n : Nat) (ws : List Quotation) : Except Refusal (List Value) :=
  match ws.findIdx? fun w => !w.isKept with
  | none => .ok (ws.map Quotation.value)
  | some i => .error ⟨n + i, .unterminatedString⟩

theorem outcome_cons (n : Nat) (w : Quotation) (ws : List Quotation) :
    outcome n (w :: ws) =
      if w.isKept then (outcome (n + 1) ws).map (w.value :: ·)
      else .error ⟨n, .unterminatedString⟩ := by
  rw [outcome, outcome, List.findIdx?_cons]
  cases hw : w.isKept with
  | false => rfl
  | true =>
      cases hi : ws.findIdx? fun w => !w.isKept with
      | none => simp [Except.map]
      | some i => simp [Except.map, Nat.add_assoc, Nat.add_comm 1 i]

theorem rowsFrom_itemLines (n d : Nat) (ws : List Quotation) :
    rowsFrom n ((ws.map (itemLine d)).map String.toList) = .ok (itemRows n d ws) := by
  induction ws generalizing n with
  | nil => rfl
  | cons w ws ih =>
      obtain ⟨s, hs⟩ := w.exists_left
      have hb : ¬ allBlank (uncommented true none w.written) = true := by
        show ¬ allBlank w.left = true
        simp [hs, w.quoting.isBlank_mark]
      have hr := rowOfLine_headed n d rowText_dash noComment_dash hb
      rw [List.map_cons, List.map_cons, rowsFrom_cons, ih, itemLine, String.toList_ofList]
      show Except.bind (rowOfLine n (List.replicate d ' ' ++ (['-'] ++ ' ' :: w.written)))
        _ = _
      rw [hr]
      rfl

theorem result_readSequenceItem_quotation (n d : Nat) (w : Quotation) (rest : List Row) :
    (readSequenceItem d ⟨n, d, '-' :: ' ' :: trimEnd w.left⟩ rest).result =
      if w.isKept then .ok (w.value, rest) else .error ⟨n, .unterminatedString⟩ := by
  obtain ⟨s, hs⟩ := w.exists_left
  have ht : trimEnd w.left = w.quoting.mark :: trimEnd s := by
    rw [hs, Quoting.trimEnd_mark]
  have hr : readInline (w.quoting.mark :: trimEnd s) =
      if w.isKept then .ok w.value else .error .unterminatedString := by
    rw [← ht, readInline_trimEnd, w.readInline_left]
  rw [result_readSequenceItem, ht, behindDash_cons w.quoting.isBlank_mark]
  simp only [List.isEmpty_cons, Bool.false_eq_true, if_false, Quoting.startsFlow_mark,
    Bool.not_true, Bool.and_false, Row.inline, hr]
  split <;> rfl

theorem result_readSequence_itemRows (n d : Nat) (ws : List Quotation) :
    (readSequence d (itemRows n d ws)).result = (outcome n ws).map fun vs =>
      (vs, []) := by
  induction ws generalizing n with
  | nil => exact result_readSequence_nil d
  | cons w ws ih =>
      rw [itemRows, result_readSequence_cons, if_neg (Nat.lt_irrefl d),
        if_neg (by simp [Row.isItem, isItemText]),
        result_readSequenceItem_quotation, outcome_cons]
      cases hw : w.isKept with
      | false => rfl
      | true =>
          rw [if_pos rfl, if_pos rfl, Except.bind, ih]
          cases outcome (n + 1) ws <;> rfl

theorem result_readBelow_itemRows (n d : Nat) {ws : List Quotation} (hne : ws ≠ []) :
    (readBelow 0 (itemRows n d ws)).result = (outcome n ws).map fun vs =>
      (.list vs, []) := by
  obtain ⟨w, ws, rfl⟩ := List.exists_cons_of_ne_nil hne
  have hs := result_readSequence_itemRows n d (w :: ws)
  rw [itemRows] at hs ⊢
  have hi : Row.isItem ⟨n, d, '-' :: ' ' :: trimEnd w.left⟩ = true := rfl
  rw [result_readBelow_cons, result_readBlock_cons, if_pos hi]
  by_cases hd : 0 < d
  · rw [if_pos hd, hs]
    cases outcome n (w :: ws) <;> rfl
  · obtain rfl : d = 0 := by omega
    rw [if_neg hd, if_pos (by simp [hi]), hs]
    cases outcome n (w :: ws) <;> rfl

/-- A sequence of quotations below a key, its items at any column, is
read item by item. -/
theorem read_itemLines (hk : IsWord key) (n d : Nat) {ws : List Quotation}
    (hne : ws ≠ []) :
    read n ((key ++ ":") :: ws.map (itemLine d)) =
      (outcome (n + 1) ws).map fun vs => ⟨[(keyText key, .list vs)]⟩ := by
  have hl : (key ++ ":").toList = key.toList ++ [':'] := by simp
  have hr : rowOfLine n (key ++ ":").toList = .ok (some ⟨n, 0, key.toList ++ [':']⟩) := by
    rw [hl]
    exact rowOfLine_spaces n 0 hk.rowText
  have hs := hk.splitKey?_append (t := []) (.inl rfl)
  have he : (readEntry 0 ⟨n, 0, key.toList ++ [':']⟩ (itemRows (n + 1) d ws)).result =
      ((outcome (n + 1) ws).map fun vs => (keyText key, .list vs)).map fun e =>
      (e, []) := by
    simp only [result_readEntry, hs, hk.readKey_eq, Row.inline, trim_nil,
      List.isEmpty_nil, if_true, result_readBelow_itemRows (n + 1) d hne,
      Except.mapError, Except.bind]
    cases outcome (n + 1) ws <;> rfl
  rw [read_eq, List.map_cons, rowsFrom_cons, hr, rowsFrom_itemLines]
  show Except.map _ (readRows (⟨n, 0, key.toList ++ [':']⟩ :: itemRows (n + 1) d ws)) = _
  rw [readRows_of_readEntry (hk.isItem_append _ _ _) he]
  cases outcome (n + 1) ws <;> rfl

/-! ## Flow sequences -/

/-- The quotations with a comma and a space between any two, as they stand
between the brackets. -/
def flowText (ws : List Quotation) : List Char := joined (ws.map Quotation.written)

theorem exists_of_wholeString {x : Option (List Char × List Char)} {v : Value}
    (h : wholeString x = .ok v) :
    ∃ u r, x = some (u, r) ∧ allBlank r = true := by
  cases x with
  | none => cases h
  | some p =>
      rw [wholeString] at h
      split at h
      · exact ⟨_, _, rfl, ‹_›⟩
      · cases h

theorem exists_of_readItems_cons {p : List Char} {ps : List (List Char)} {vs : List Value}
    (h : readItems (p :: ps) = .ok vs) :
    ∃ v us, readItem p = .ok v ∧ readItems ps = .ok us := by
  rw [readItems] at h
  cases hv : readItem p with
  | error f => rw [hv] at h; cases h
  | ok v =>
      cases hu : readItems ps with
      | error f => rw [hv, hu] at h; cases h
      | ok us => exact ⟨v, us, rfl, rfl⟩

/-- What may follow a quotation in a flow sequence. -/
def Closes (t : List Char) : Prop := ∃ c u, t = c :: u ∧ (c = ',' ∨ c = ']')

theorem Closes.head?_ne (h : Closes t) (q : Quoting) : t.head? ≠ some q.mark := by
  obtain ⟨c, u, rfl, rfl | rfl⟩ := h <;> cases q <;> simp [Quoting.mark]

theorem Closes.eq_of_blanks (h : Closes (s ++ t)) (hs : allBlank s = true) : s = [] := by
  obtain ⟨c, u, he, hc⟩ := h
  cases s with
  | nil => rfl
  | cons d s =>
      obtain ⟨rfl, -⟩ := List.cons.inj he
      rcases hc with rfl | rfl <;> cases hs

/-- A part that is read as a string, and was cut where a separator or the bracket
stands, is the quotation that stands there. -/
theorem eq_inner_of_read? {q : Quoting} {x p u r tail : List Char}
    (h : p ++ t = q.inner x ++ q.mark :: tail) (ht : Closes t) (htail : Closes tail)
    (hr : q.read? (trimEnd p) = some (u, r)) (hb : allBlank r = true) :
    p = q.inner x ++ [q.mark] ∧ t = tail := by
  obtain ⟨z, hz, hzb⟩ := exists_trimEnd_append p
  -- With everything behind it the part is read as before, and the text begins with the
  -- whole quotation.
  have hhead : (z ++ t).head? ≠ some q.mark := by
    cases z with
    | nil => exact ht.head?_ne q
    | cons c z =>
        rintro ⟨⟩
        rw [allBlank_cons, q.isBlank_mark] at hzb
        cases hzb
  have hread := q.read?_append hr hhead
  rw [← List.append_assoc, ← hz, h, q.read?_quoted x (htail.head?_ne q)] at hread
  obtain ⟨-, hrest⟩ := Prod.mk.inj (Option.some.inj hread)
  have hrz : r ++ z = [] := by
    refine Closes.eq_of_blanks (t := t) ?_ (by rw [allBlank_append, hb, hzb]; rfl)
    rw [List.append_assoc, ← hrest]
    exact htail
  obtain ⟨rfl, rfl⟩ := List.append_eq_nil_iff.1 hrz
  obtain rfl : tail = t := hrest
  refine ⟨?_, rfl⟩
  have hp : p ++ tail = (q.inner x ++ [q.mark]) ++ tail := by rw [h]; simp
  exact List.append_cancel_right hp

theorem exists_of_readItem {q : Quoting} {p : List Char} {v : Value}
    (h : readItem (q.mark :: trimEnd p) = .ok v) :
    ∃ u r, q.read? (trimEnd p) = some (u, r) ∧ allBlank r = true := by
  rw [readItem, if_neg (by simp [Quoting.startsFlow_mark]), readInline, q.trim_mark,
    trimEnd_trimEnd, q.readTrimmed_mark] at h
  exact exists_of_wholeString h

theorem flowParts_of_splitNested {q : Quoting} {x p : List Char} {ps : List (List Char)}
    (h : splitNested .top x = (q.mark :: p) :: ps) :
    flowParts x = (q.mark :: trimEnd p) :: (ps.map trim).filter fun p => !p.isEmpty := by
  rw [flowParts, splitTopLevel, h, List.map_cons, q.trim_mark]
  rfl

/-- If the parts up to a bracket are all read, the first of them is
the first quotation. -/
theorem first_of_readItems {w : Quotation} {x z tail : List Char} {vs : List Value}
    (h : x ++ ']' :: z = w.written ++ tail) (htail : Closes tail)
    (hv : readItems (flowParts x) = .ok vs) :
    (x = w.written ∧ splitTopLevel x = [w.written]) ∨
      ∃ y us, x = w.written ++ ',' :: y ∧ splitTopLevel x = w.written :: splitTopLevel y ∧
        readItems (flowParts y) = .ok us := by
  have hw : w.written =
      w.quoting.mark :: (w.quoting.inner w.content.toList ++ [w.quoting.mark]) := rfl
  have htrim : trim w.written = w.written := w.quoting.trim_quoted _
  have hfirst : ∀ {p t : List Char} {ps : List (List Char)}, Closes t →
    p ++ t = w.written ++ tail →
      splitNested .top x = p :: ps →
        p = w.written ∧ ∃ us,
        readItems ((ps.map trim).filter fun p => !p.isEmpty) = .ok us := by
    intro p t ps ht hp hs
    cases p with
    | nil =>
        exact absurd (congrArg List.head? hp) (by simpa [hw] using ht.head?_ne w.quoting)
    | cons c p =>
        rw [hw, List.cons_append, List.cons_append, List.append_assoc,
          List.singleton_append] at hp
        obtain ⟨rfl, hx⟩ := List.cons.inj hp
        rw [flowParts_of_splitNested hs] at hv
        obtain ⟨v, us, hi, hus⟩ := exists_of_readItems_cons hv
        obtain ⟨u, r, hr, hb⟩ := exists_of_readItem hi
        obtain ⟨hq, -⟩ := eq_inner_of_read? hx ht htail hr hb
        exact ⟨by rw [hq, hw], us, hus⟩
  rcases splitNested_eq .top x with hs | ⟨p, y, rfl, hs⟩
  · obtain ⟨rfl, -⟩ := hfirst ⟨']', z, rfl, .inr rfl⟩ h hs
    exact .inl ⟨rfl, by rw [splitTopLevel, hs, List.map_singleton, htrim]⟩
  · rw [List.append_assoc] at h
    obtain ⟨rfl, us, hus⟩ := hfirst ⟨',', y ++ ']' :: z, rfl, .inl rfl⟩ h hs
    refine .inr ⟨y, us, rfl, ?_, hus⟩
    rw [splitTopLevel, hs, List.map_cons, htrim]
    rfl

theorem flowText_cons_cons (w u : Quotation) (ws : List Quotation) :
    flowText (w :: u :: ws) = w.written ++ ',' :: ' ' :: flowText (u :: ws) :=
  joined_cons_cons _ _ _

theorem flowText_singleton (w : Quotation) :
    flowText [w] = w.written := joined_singleton _

/-- Whatever of the text between the brackets is left, if it can be read, it is the
whole text, cut between the quotations. -/
theorem eq_flowText_of_readItems {ws : List Quotation} (hne : ws ≠ []) {x z : List Char}
    {vs : List Value} (h : x ++ ']' :: z = flowText ws ++ [']'])
    (hv : readItems (flowParts x) = .ok vs) :
    x = flowText ws ∧ splitTopLevel x = ws.map Quotation.written := by
  -- On the quotations: the first part is the first of them, and the text tells whether
  -- a comma or the bracket follows.
  induction ws generalizing x vs with
  | nil => exact absurd rfl hne
  | cons w ws ih =>
      cases ws with
      | nil =>
          rw [flowText_singleton] at h ⊢
          rcases first_of_readItems h ⟨']', [], rfl, .inr rfl⟩ hv with
            hx | ⟨y, us, rfl, -, -⟩
          · exact hx
          · rw [List.append_assoc, List.append_cancel_left_eq] at h
            cases h
      | cons u ws =>
          rw [flowText_cons_cons, List.append_assoc] at h
          rcases first_of_readItems h ⟨',', _, rfl, .inl rfl⟩ hv with
            ⟨rfl, -⟩ | ⟨y, us, rfl, hs, hus⟩
          · rw [List.append_cancel_left_eq] at h
            cases h
          · rw [List.append_assoc, List.append_cancel_left_eq] at h
            replace h := (List.cons.inj h).2
            cases y with
            | nil => cases h
            | cons c y =>
                obtain ⟨rfl, hy⟩ := List.cons.inj h
                rw [flowParts, splitTopLevel_space, ← flowParts] at hus
                obtain ⟨rfl, hsplit⟩ := ih (List.cons_ne_nil u ws) hy hus
                rw [hs, splitTopLevel_space, hsplit, flowText_cons_cons]
                exact ⟨rfl, rfl⟩

theorem flowParts_of_splitTopLevel {ws : List Quotation} {x : List Char}
    (h : splitTopLevel x = ws.map Quotation.written) :
    flowParts x = ws.map Quotation.written := by
  rw [flowParts, h, List.filter_eq_self]
  intro p hp
  obtain ⟨w, -, rfl⟩ := List.mem_map.1 hp
  rfl

theorem readItems_written (ws : List Quotation) :
    readItems (ws.map Quotation.written) = .ok (ws.map Quotation.value) := by
  refine readItems_map fun w _ => ?_
  have hs : startsFlow w.written = true := Quoting.startsFlow_mark _ _
  rw [readItem, if_neg (by simp [hs]), Quotation.written, Quoting.readInline_quoted,
    String.ofList_toList]
  rfl

theorem exists_of_readInline_bracket {v : Value} (h : readInline ('[' :: t) = .ok v) :
    ∃ x vs, trimEnd t = x ++ [']'] ∧ readItems (flowParts x) = .ok vs ∧ v = .list vs := by
  rw [readInline_bracket] at h
  by_cases hl : (trimEnd t).getLast? = some ']'
  · have hx := (List.dropLast_append_getLast? _ hl).symm
    rw [hx, readTrimmed_brackets] at h
    cases hv : readItems (flowParts (trimEnd t).dropLast) with
    | error f => rw [hv] at h; cases h
    | ok vs =>
        rw [hv] at h
        cases h
        exact ⟨_, vs, hx, hv, rfl⟩
  · rw [readTrimmed_unclosed hl] at h
    cases h

/-- A flow sequence of quotations is refused or read back.  It is read back if the
comment stripper leaves all of it and it is cut between the quotations only. -/
theorem readInline_flowText_iff {ws : List Quotation} (hne : ws ≠ []) (v : Value) :
    readInline (uncommented true none ('[' :: (flowText ws ++ [']']))) = .ok v ↔
      (uncommented true none ('[' :: (flowText ws ++ [']'])) =
        '[' :: (flowText ws ++ [']']) ∧
        splitTopLevel (flowText ws) = ws.map Quotation.written) ∧
        v = .list (ws.map Quotation.value) := by
  constructor
  · intro h
    obtain ⟨s, hs⟩ := exists_uncommented_cons (c := '[') (by decide) true
      (flowText ws ++ [']'])
    have hp := uncommented_isPrefix true none ('[' :: (flowText ws ++ [']']))
    rw [hs] at h hp ⊢
    rw [List.prefix_cons_inj] at hp
    obtain ⟨x, vs, hx, hv, rfl⟩ := exists_of_readInline_bracket h
    have hxs : x ++ [']'] <+: s := hx ▸ trimEnd_prefix s
    obtain ⟨z, hz⟩ := hxs.trans hp
    rw [List.append_assoc] at hz
    obtain ⟨rfl, hsplit⟩ := eq_flowText_of_readItems hne hz hv
    rw [flowParts_of_splitTopLevel hsplit, readItems_written] at hv
    cases hv
    refine ⟨⟨?_, hsplit⟩, rfl⟩
    rw [hp.eq_of_length_le hxs.length_le]
  · rintro ⟨⟨hu, hsplit⟩, rfl⟩
    rw [hu, readInline_brackets, flowParts_of_splitTopLevel hsplit, readItems_written]
    rfl

/-- The splitter knows no escapes, so a string between double quotes may
hold none of them. -/
theorem isWhole_quoted {q : Quoting} (h : q = .doubleQuotes → '"' ∉ s) :
    IsWhole (q.quoted s) := by
  intro t p ps ht
  have hopen : Nesting.step .top q.mark = ⟨0, some q.mark⟩ := by cases q <;> rfl
  have hclose : Nesting.step ⟨0, some q.mark⟩ q.mark = .top := by cases q <;> rfl
  have hin : ∀ m, Nesting.separates ⟨0, some q.mark⟩ m = false :=
    fun m => by simp [Nesting.separates]
  have hout : Nesting.separates .top q.mark = false := by cases q <;> rfl
  have hinner : splitNested ⟨0, some q.mark⟩ (q.inner s ++ q.mark :: t) =
      (q.inner s ++ q.mark :: p) :: ps := by
    induction s with
    | nil => exact splitNested_cons (hin _) (hclose ▸ ht)
    | cons c s ih =>
        have hs : q = .doubleQuotes → '"' ∉ s :=
          fun hq hm => h hq (List.mem_cons_of_mem c hm)
        rw [Quoting.inner_cons, List.append_assoc, List.append_assoc]
        by_cases hc : c = q.mark
        · cases q with
          | apostrophes =>
              have hw : Quoting.apostrophes.written c = ['\'', '\''] := by rw [hc]; rfl
              rw [hw]
              exact splitNested_cons (hin _) (splitNested_cons hout (ih hs))
          | doubleQuotes => exact absurd (hc ▸ List.mem_cons_self) (h rfl)
        · exact splitNested_append_of_not_mem (Quoting.mark_not_mem_written hc) (ih hs)
  have hs := splitNested_cons hout (hopen ▸ hinner)
  simpa [Quoting.quoted] using hs

/-- The line that has the quotations as a flow sequence. -/
def flowLine (key : String) (ws : List Quotation) : String :=
  key ++ ": " ++ String.ofList ('[' :: (flowText ws ++ [']']))

theorem read_flowLine_iff (hk : IsWord key) (n : Nat) {ws : List Quotation}
    (hne : ws ≠ []) (m : Metadata) :
    read n [flowLine key ws] = .ok m ↔
      (uncommented true none ('[' :: (flowText ws ++ [']'])) =
        '[' :: (flowText ws ++ [']']) ∧
        splitTopLevel (flowText ws) = ws.map Quotation.written) ∧
      m = ⟨[(keyText key, .list (ws.map Quotation.value))]⟩ := by
  have hr := readInline_flowText_iff hne
  rw [flowLine, read_entry hk rfl (by decide)]
  constructor
  · intro h
    cases hv : readInline (uncommented true none ('[' :: (flowText ws ++ [']']))) with
    | error f => rw [hv] at h; cases h
    | ok v =>
        obtain ⟨hw, rfl⟩ := (hr v).1 hv
        rw [hv] at h
        cases h
        exact ⟨hw, rfl⟩
  · rintro ⟨hw, rfl⟩
    rw [(hr _).2 ⟨hw, rfl⟩]
    rfl

/-- Without comment signs, and without double quotes where these are escaped,
nothing goes wrong. -/
theorem read_flowLine (hk : IsWord key) (n : Nat) {ws : List Quotation} (hne : ws ≠ [])
    (h : ∀ w ∈ ws, '#' ∉ w.content.toList ∧
      (w.quoting = .doubleQuotes → '"' ∉ w.content.toList)) :
    read n [flowLine key ws] = .ok ⟨[(keyText key, .list (ws.map Quotation.value))]⟩ := by
  refine (read_flowLine_iff hk n hne _).2 ⟨⟨uncommented_of_not_mem ?_ _ _, ?_⟩, rfl⟩
  · intro hm
    rw [List.mem_cons, List.mem_append, List.mem_singleton] at hm
    rcases hm with hm | hm | hm
    · cases hm
    · rcases mem_joined hm with hm | hm | ⟨p, hp, hm⟩
      · cases hm
      · cases hm
      · obtain ⟨w, hw, rfl⟩ := List.mem_map.1 hp
        exact Quoting.hash_not_mem_quoted (h w hw).1 hm
    · cases hm
  · refine splitTopLevel_joined_of_isWhole (by simpa using hne) ?_
    intro p hp
    obtain ⟨w, hw, rfl⟩ := List.mem_map.1 hp
    exact ⟨w.quoting.trim_quoted _, isWhole_quoted (h w hw).2⟩

/-- A quotation behind a key. -/
def entryLine (key : String) (w : Quotation) : String :=
  key ++ ": " ++ String.ofList w.written

theorem read_entryLine (hk : IsWord key) (n : Nat) (w : Quotation) :
    read n [entryLine key w] =
      if w.isKept then .ok ⟨[(keyText key, w.value)]⟩
      else .error ⟨n, .unterminatedString⟩ := by
  have hm : w.quoting.mark ≠ '#' := by cases w.quoting <;> decide
  have h := read_entry hk w.quoting.isBlank_mark hm
    (w.quoting.inner w.content.toList ++ [w.quoting.mark]) n
  have hw : w.quoting.mark :: (w.quoting.inner w.content.toList ++ [w.quoting.mark]) =
      w.written := rfl
  have hl : uncommented true none w.written = w.left := rfl
  rw [hw, hl, w.readInline_left] at h
  rw [entryLine, h]
  split <;> rfl

/-- Whether a quoted string is read back.  Behind a key and as an item of a block
sequence it is read back if the comment stripper leaves it whole, and its line is
refused otherwise.  A flow sequence of quoted strings is never read as anything
but these strings.  It may be refused, though not if no string holds a comment
sign or an escaped quote. -/
theorem read_quotations (hk : IsWord key) (n : Nat) :
    (∀ w, read n [entryLine key w] =
      if w.isKept then .ok ⟨[(keyText key, w.value)]⟩
      else .error ⟨n, .unterminatedString⟩) ∧
    (∀ d, ∀ ws ≠ [], read n ((key ++ ":") :: ws.map (itemLine d)) =
      (outcome (n + 1) ws).map fun vs => ⟨[(keyText key, .list vs)]⟩) ∧
    (∀ ws ≠ [], ∀ m, read n [flowLine key ws] = .ok m ↔
      (uncommented true none ('[' :: (flowText ws ++ [']'])) =
        '[' :: (flowText ws ++ [']']) ∧
        splitTopLevel (flowText ws) = ws.map Quotation.written) ∧
      m = ⟨[(keyText key, .list (ws.map Quotation.value))]⟩) ∧
    (∀ ws ≠ [],
      (∀ w ∈ ws, '#' ∉ w.content.toList ∧
        (w.quoting = .doubleQuotes → '"' ∉ w.content.toList)) →
        read n [flowLine key ws] =
          .ok ⟨[(keyText key, .list (ws.map Quotation.value))]⟩) := by
  refine ⟨read_entryLine hk n, fun d ws hne => read_itemLines hk n d hne,
    fun ws hne m => ?_, fun ws hne h => ?_⟩
  · exact read_flowLine_iff hk n hne m
  · exact read_flowLine hk n hne h

theorem read_quotations_marks :
    read 1 ["k: '#1: it''s'"] = .ok ⟨[("k", .str "#1: it's")]⟩ ∧
    read 1 ["k:", "  - \"#\\t\\\"[,\"", "  - 'it''s'"] =
      .ok ⟨[("k", .list [.str "#\t\"[,", .str "it's"])]⟩ ∧
    read 1 ["k: ['it''s, ', \"[\\\\\"]"] =
      .ok ⟨[("k", .list [.str "it's, ", .str "[\\"])]⟩ := by
  have hk : IsWord "k" := ⟨by decide, rfl⟩
  obtain ⟨hentry, hitems, -, hflow⟩ := read_quotations hk 1
  refine ⟨?_, ?_, ?_⟩
  · exact (hentry ⟨.apostrophes, "#1: it's"⟩).trans (if_pos (by decide))
  · exact hitems 2 [⟨.doubleQuotes, "#\t\"[,"⟩, ⟨.apostrophes, "it's"⟩] (by decide)
  · exact hflow [⟨.apostrophes, "it's, "⟩, ⟨.doubleQuotes, "[\\"⟩] (by decide) (by decide)

theorem read_quotations_cut :
    read 1 ["k: 'a'' #b'"] = .error ⟨1, .unterminatedString⟩ ∧
    read 1 ["k: [\"a\\\"\", \"b\"]"] = .error ⟨1, .textAfterString⟩ ∧
    read 1 ["k: ['a #b', 'c']"] = .error ⟨1, .unterminatedSequence⟩ := by
  have hk : IsWord "k" := ⟨by decide, rfl⟩
  refine ⟨?_, ?_, ?_⟩
  · exact (read_entryLine hk 1 ⟨.apostrophes, "a' #b"⟩).trans (if_neg (by decide))
  · have hleft : uncommented true none ('[' :: "\"a\\\"\", \"b\"]".toList) =
        '[' :: ("\"a\\\"\", \"b\"".toList ++ [']']) := by decide
    -- The splitter takes the escaped quote for the last one, so the comma is in a string.
    have hparts : flowParts "\"a\\\"\", \"b\"".toList = ["\"a\\\"\", \"b\"".toList] := by
      decide
    have hitem : readItem "\"a\\\"\", \"b\"".toList = .error .textAfterString := by
      rw [readItem, if_neg (by decide), readInline]
      exact Quoting.readTrimmed_mark .doubleQuotes "a\\\"\", \"b\"".toList
    have h := read_entry hk (c := '[') rfl (by decide) "\"a\\\"\", \"b\"]".toList 1
    rw [hleft, readInline_brackets, hparts, readItems, hitem] at h
    exact h
  · have hleft : uncommented true none ('[' :: "'a #b', 'c']".toList) =
        '[' :: "'a ".toList := by decide
    have hopen : readInline ('[' :: "'a ".toList) = .error .unterminatedSequence := by
      rw [readInline_bracket, readTrimmed_unclosed (by decide)]
    have h := read_entry hk (c := '[') rfl (by decide) "'a #b', 'c']".toList 1
    rw [hleft, hopen] at h
    exact h

end NotebookService.Metadata
