/-
# `NotebookService.Proofs.Metadata.Keyed` — which mappings give a key once

A mapping of a declaration is written as a block, at the top, below a key or behind a
dash, or on one line.  The block reader collects what it has read: a key that comes
again keeps its place and takes the later value.  The flow reader does not, and
`{a: 1, a: 2}` is a mapping with the key `a` twice.

`Value.Holds` says that a mapping stands somewhere in a value, at any depth.  Each
mapping that is held comes either from the rows of a block, and is then collected, or
from a flow mapping or a pair in the text of a line, and is then what is written there
(`Origin`).  Following the readers down to the origin of every mapping decides the
question: the keys of all mappings are distinct exactly if no flow mapping that went
into the result gives a key twice (`keys_distinct_iff`).
-/
import Mathlib.Data.List.Infix
import Mathlib.Data.List.Nodup
import Mathlib.Data.Option.Basic
import NotebookService.Proofs.Metadata.Composed
import NotebookService.Proofs.Metadata.Flow
import NotebookService.Proofs.Metadata.Taken

namespace NotebookService.Metadata

open NotebookService.Text

variable {s t : List Char} {v : Value} {es fs : List (String × Value)}
  {rows rest left : List Row}

/-! ## Mappings inside a value -/

/-- The mapping stands somewhere in the value. -/
inductive Value.Holds : Value → List (String × Value) → Prop where
  | self (es : List (String × Value)) : Holds (.map es) es
  | item {items : List Value} {v : Value} {es : List (String × Value)} (hv : v ∈ items)
      (h : Holds v es) :
      Holds (.list items) es
  | entry {entries : List (String × Value)} {e : String × Value}
      {es : List (String × Value)} (he : e ∈ entries)
      (h : Holds e.2 es) : Holds (.map entries) es

/-- The mapping is the declaration itself, or stands somewhere in it. -/
def Holds (m : Metadata) (es : List (String × Value)) : Prop :=
  (Value.map m.entries).Holds es

theorem holds_list_iff {items : List Value} :
    (Value.list items).Holds es ↔ ∃ v ∈ items, v.Holds es := by
  constructor
  · rintro (_ | ⟨hv, h⟩)
    exact ⟨_, hv, h⟩
  · rintro ⟨v, hv, h⟩
    exact .item hv h

theorem holds_map_iff {entries : List (String × Value)} :
    (Value.map entries).Holds es ↔ es = entries ∨ ∃ e ∈ entries, e.2.Holds es := by
  constructor
  · rintro (_ | _ | ⟨he, h⟩)
    · exact .inl rfl
    · exact .inr ⟨_, he, h⟩
  · rintro (rfl | ⟨e, he, h⟩)
    · exact .self _
    · exact .entry he h

/-! ## On one line -/

/-- The key that a part of a flow mapping gives. -/
def partKey? (p : List Char) : Option String :=
  match splitKey? p with
  | some (key, _) => (readKey key).toOption
  | none => (readKey p).toOption

/-- The mapping is what a flow mapping or a pair in the text says. -/
inductive WrittenInline (s : List Char) : List (String × Value) → Prop where
  | mapping {inner : List Char} {es : List (String × Value)}
      (hs : '{' :: (inner ++ ['}']) <:+: s)
      (h : readPairs (flowParts inner) = .ok es) : WrittenInline s es
  | pair {p : List Char} {e : String × Value} (hs : p <:+: s) (h : readPair p = .ok e) :
      WrittenInline s [e]

theorem WrittenInline.mono (h : WrittenInline s es) (hs : s <:+: t) :
    WrittenInline t es := by
  cases h with
  | mapping hi h => exact .mapping (hi.trans hs) h
  | pair hp h => exact .pair (hp.trans hs) h

theorem partKey?_of_readPair {p : List Char} {e : String × Value}
    (h : readPair p = .ok e) : partKey? p = some e.1 := by
  rw [readPair.eq_def] at h
  rw [partKey?]
  split at h
  · rename_i key rest hk
    obtain ⟨name, hn, h⟩ := bind_eq_ok.1 h
    rw [hk]
    split at h
    · cases h
      exact congrArg Except.toOption hn
    · obtain ⟨v, -, h⟩ := bind_eq_ok.1 h
      cases h
      exact congrArg Except.toOption hn
  · rename_i hk
    obtain ⟨name, hn, h⟩ := bind_eq_ok.1 h
    cases h
    rw [hk]
    exact congrArg Except.toOption hn

/-- A flow mapping has the keys of its parts, as often as they are given. -/
theorem map_partKey? {ps : List (List Char)} (h : readPairs ps = .ok es) :
    ps.map partKey? = (Table.names es).map some := by
  induction ps generalizing es with
  | nil =>
      rw [readPairs] at h
      cases h
      rfl
  | cons p ps ih =>
      rw [readPairs] at h
      obtain ⟨e, he, h⟩ := bind_eq_ok.1 h
      obtain ⟨es', hes, h⟩ := bind_eq_ok.1 h
      cases h
      rw [List.map_cons, partKey?_of_readPair he, ih hes]
      rfl

/-! ### Parts of a text -/

theorem trim_isInfix (s : List Char) : trim s <:+: s := by
  have hend := trimEnd_prefix (trimStart s)
  exact hend.isInfix.trans (List.dropWhile_suffix isBlank).isInfix

theorem infix_of_mem_splitNested {n : Nesting} {s p : List Char}
    (h : p ∈ splitNested n s) : p <:+: s := by
  rcases splitNested_eq n s with hs | ⟨q, t, hq, hs⟩
  · rw [hs] at h
    rw [List.mem_singleton.1 h]
  · rw [hs] at h
    rcases List.mem_cons.1 h with rfl | h
    · exact ⟨[], ',' :: t, hq.symm⟩
    · have ht : t <:+: s :=
        (List.suffix_cons ',' t).isInfix.trans ⟨q, [], by rw [hq]; simp⟩
      exact (infix_of_mem_splitNested h).trans ht
termination_by s.length
decreasing_by
  rw [hq]
  simp
  omega

theorem infix_of_mem_flowParts {p : List Char} (h : p ∈ flowParts s) : p <:+: s := by
  obtain ⟨q, hq, rfl⟩ := List.mem_map.1 (List.mem_filter.1 h).1
  exact (trim_isInfix q).trans (infix_of_mem_splitNested hq)

theorem eq_concat_of_upToLast? {close : Char} (h : upToLast? close s = some t) :
    s = t ++ [close] := by
  rw [upToLast?] at h
  split at h
  · rename_i hl
    cases h
    exact (List.dropLast_append_getLast? _ hl).symm
  · cases h

theorem eq_of_splitAtColon? {d : Nat} {s key rest : List Char}
    (h : splitAtColon? d s = some (key, rest)) :
    s = key ++ ':' :: rest := by
  induction s generalizing d key with
  | nil => cases h
  | cons c s ih =>
      rw [splitAtColon?] at h
      split at h
      · rename_i hc
        cases h
        rw [hc.1, List.nil_append]
      · obtain ⟨⟨k, r⟩, hk, he⟩ := Option.map_eq_some_iff.1 h
        cases he
        rw [ih hk, List.cons_append]

theorem infix_of_splitKey? {key rest : List Char} (h : splitKey? s = some (key, rest)) :
    rest <:+: s := by
  obtain ⟨⟨k, r⟩, hk, he⟩ := Option.map_eq_some_iff.1 h
  cases he
  refine (trim_isInfix r).trans ?_
  cases s with
  | nil => cases hk
  | cons c s =>
      rw [splitAfterQuote?] at hk
      split at hk
      · split at hk
        · cases hk
        · rename_i q after hafter
          obtain ⟨⟨k', r'⟩, hk', he⟩ := Option.map_eq_some_iff.1 hk
          cases he
          have hr : r <:+ q :: after := by
            rw [eq_of_splitAtColon? hk']
            exact ⟨q :: k' ++ [':'], by simp⟩
          have hs : r <:+ s := hr.trans (hafter ▸ List.dropWhile_suffix _)
          exact (hs.trans (List.suffix_cons c s)).isInfix
      · exact ⟨k ++ [':'], [], by rw [eq_of_splitAtColon? hk]; simp⟩

/-! ### The readers of one line -/

theorem not_holds_resolvePlain (s : List Char) : ¬ (resolvePlain s).Holds es := by
  intro h
  rw [resolvePlain] at h
  split at h
  · cases h
  · split at h
    · cases h
    · split at h
      · cases h
      · split at h
        · cases h
        · split at h <;> cases h

theorem not_holds_wholeString {x : Option (List Char × List Char)}
    (h : wholeString x = .ok v) : ¬ v.Holds es := by
  intro he
  rw [wholeString.eq_def] at h
  split at h
  · cases h
  · split at h
    · cases h
      cases he
    · cases h

/-- A text that is read as a value is a flow collection, or else no mapping is in it. -/
theorem readTrimmed_cases (h : readTrimmed s = .ok v) :
    (∃ inner items, s = '[' :: (inner ++ [']']) ∧
      readItems (flowParts inner) = .ok items ∧ v = .list items) ∨
      (∃ inner entries, s = '{' :: (inner ++ ['}']) ∧
        readPairs (flowParts inner) = .ok entries ∧ v = .map entries) ∨
      ∀ es, ¬ v.Holds es := by
  rw [readTrimmed.eq_def] at h
  split at h
  · split at h
    · cases h
    · rename_i inner ht
      obtain ⟨items, hi, h⟩ := bind_eq_ok.1 h
      cases h
      exact .inl ⟨inner, items, by rw [eq_concat_of_upToLast? ht], hi, rfl⟩
  · split at h
    · cases h
    · rename_i inner ht
      obtain ⟨entries, hi, h⟩ := bind_eq_ok.1 h
      cases h
      exact .inr (.inl ⟨inner, entries, by rw [eq_concat_of_upToLast? ht], hi, rfl⟩)
  · exact .inr (.inr fun es => not_holds_wholeString h)
  · exact .inr (.inr fun es => not_holds_wholeString h)
  · cases h
  · cases h
  · split at h
    · cases h
    · cases h
      exact .inr (.inr fun es => not_holds_resolvePlain _)

theorem roomOf_flowParts_lt {inner : List Char} {opening closing : Char}
    (h : s = opening :: (inner ++ [closing])) :
    roomOf (flowParts inner) < s.length := by
  have hroom := roomOf_flowParts_le inner
  simp only [h, List.length_cons, List.length_append, List.length_nil]
  omega

theorem readPair_cases {p : List Char} {e : String × Value} (h : readPair p = .ok e) :
    (∃ key rest, splitKey? p = some (key, rest) ∧ readInline rest = .ok e.2) ∨
      e.2 = .null := by
  rw [readPair.eq_def] at h
  split at h
  · rename_i key rest hk
    obtain ⟨name, -, h⟩ := bind_eq_ok.1 h
    split at h
    · cases h
      exact .inr rfl
    · obtain ⟨v, hv, h⟩ := bind_eq_ok.1 h
      cases h
      exact .inl ⟨key, rest, hk, hv⟩
  · obtain ⟨name, -, h⟩ := bind_eq_ok.1 h
    cases h
    exact .inr rfl

mutual

theorem readTrimmed_writtenInline (s : List Char) {v : Value} (h : readTrimmed s = .ok v)
    {es : List (String × Value)} (he : v.Holds es) : WrittenInline s es := by
  rcases readTrimmed_cases h with ⟨inner, items, hs, hi, hv⟩ | ⟨inner, entries,
    hs, hi, hv⟩ | hn
  · have hlt := roomOf_flowParts_lt hs
    obtain ⟨w, hw, he⟩ := holds_list_iff.1 (hv ▸ he)
    obtain ⟨p, hp, hpe⟩ := readItems_writtenInline (flowParts inner) hi hw he
    have hin : inner <:+: s := ⟨['['], [']'], by simp [hs]⟩
    exact hpe.mono ((infix_of_mem_flowParts hp).trans hin)
  · have hlt := roomOf_flowParts_lt hs
    rcases holds_map_iff.1 (hv ▸ he) with rfl | ⟨e, hm, he⟩
    · exact .mapping (hs ▸ List.infix_rfl) hi
    · obtain ⟨p, hp, hpe⟩ := readPairs_writtenInline (flowParts inner) hi hm he
      have hin : inner <:+: s := ⟨['{'], ['}'], by simp [hs]⟩
      exact hpe.mono ((infix_of_mem_flowParts hp).trans hin)
  · exact absurd he (hn es)
termination_by (s.length, 0)
decreasing_by
  all_goals exact Prod.Lex.left _ _ hlt

theorem readItems_writtenInline (ps : List (List Char)) {vs : List Value}
    (h : readItems ps = .ok vs) {v : Value} (hv : v ∈ vs) {es : List (String × Value)}
    (he : v.Holds es) : ∃ p ∈ ps, WrittenInline p es := by
  match ps with
  | [] =>
      rw [readItems] at h
      cases h
      cases hv
  | p :: ps =>
      rw [readItems] at h
      obtain ⟨w, hw, h⟩ := bind_eq_ok.1 h
      obtain ⟨ws, hws, h⟩ := bind_eq_ok.1 h
      cases h
      rcases List.mem_cons.1 hv with rfl | hv
      · exact ⟨p, List.mem_cons_self, readItem_writtenInline p hw he⟩
      · obtain ⟨q, hq, hqe⟩ := readItems_writtenInline ps hws hv he
        exact ⟨q, List.mem_cons_of_mem p hq, hqe⟩
termination_by (roomOf ps, 0)
decreasing_by
  all_goals
    simp only [Prod.lex_def, roomOf]
    omega

theorem readPairs_writtenInline (ps : List (List Char)) {fs : List (String × Value)}
    (h : readPairs ps = .ok fs) {e : String × Value} (hm : e ∈ fs)
    {es : List (String × Value)} (he : e.2.Holds es) :
    ∃ p ∈ ps, WrittenInline p es := by
  match ps with
  | [] =>
      rw [readPairs] at h
      cases h
      cases hm
  | p :: ps =>
      rw [readPairs] at h
      obtain ⟨f, hf, h⟩ := bind_eq_ok.1 h
      obtain ⟨fs', hfs, h⟩ := bind_eq_ok.1 h
      cases h
      rcases List.mem_cons.1 hm with rfl | hm
      · exact ⟨p, List.mem_cons_self, readPair_writtenInline p hf he⟩
      · obtain ⟨q, hq, hqe⟩ := readPairs_writtenInline ps hfs hm he
        exact ⟨q, List.mem_cons_of_mem p hq, hqe⟩
termination_by (roomOf ps, 0)
decreasing_by
  all_goals
    simp only [Prod.lex_def, roomOf]
    omega

theorem readItem_writtenInline (p : List Char) {v : Value} (h : readItem p = .ok v)
    {es : List (String × Value)} (he : v.Holds es) : WrittenInline p es := by
  rw [readItem] at h
  split at h
  · obtain ⟨e, hp, h⟩ := bind_eq_ok.1 h
    cases h
    rcases holds_map_iff.1 he with rfl | ⟨f, hf, he⟩
    · exact .pair List.infix_rfl hp
    · rw [List.mem_singleton.1 hf] at he
      exact readPair_writtenInline p hp he
  · exact readInline_writtenInline p h he
termination_by (p.length, 4)
decreasing_by
  all_goals exact Prod.Lex.right _ (by decide)

theorem readPair_writtenInline (p : List Char) {e : String × Value}
    (h : readPair p = .ok e) {es : List (String × Value)} (he : e.2.Holds es) :
    WrittenInline p es := by
  rcases readPair_cases h with ⟨key, rest, hk, hv⟩ | hn
  · have hlt : rest.length < p.length := by
      have := length_splitKey? hk
      omega
    exact (readInline_writtenInline rest hv he).mono (infix_of_splitKey? hk)
  · rw [hn] at he
    cases he
termination_by (p.length, 3)
decreasing_by
  exact Prod.Lex.left _ _ hlt

theorem readInline_writtenInline (s : List Char) {v : Value} (h : readInline s = .ok v)
    {es : List (String × Value)} (he : v.Holds es) : WrittenInline s es := by
  rw [readInline] at h
  exact (readTrimmed_writtenInline (trim s) h he).mono (trim_isInfix s)
termination_by (s.length, 1)
decreasing_by
  exact Prod.Lex.right' _ (length_trim_le s) (by decide)

end

/-! ## In blocks -/

/-- Where a block can start: at a row, or behind its dash. -/
inductive StartsIn (rows : List Row) : List Row → Prop where
  | row {start : List Row} (h : start <:+ rows) : StartsIn rows start
  | dash {r : Row} {rest : List Row} (h : r :: rest <:+ rows) :
      StartsIn rows (r.behindDash :: rest)

theorem StartsIn.mono {start rows' : List Row} (h : StartsIn rows start)
    (hr : rows <:+ rows') : StartsIn rows' start := by
  cases h with
  | row h => exact .row (h.trans hr)
  | dash h => exact .dash (h.trans hr)

/-- The entries of a block mapping as the rows write them: one for each row at its
column that is no item, under the key of that row. -/
def IsBlock (rows : List Row) (written : List (String × Value)) : Prop :=
  ∃ d taken left, StartsIn rows (taken ++ left) ∧
    (readMapping d (taken ++ left)).result = .ok (written, left) ∧
    (taken.filter (Row.beginsEntry d)).map Row.key? = (Table.names written).map some

theorem isBlock_of_readMapping {d : Nat} {start : List Row} (hs : StartsIn rows start)
    (h : (readMapping d start).result = .ok (es, left)) : IsBlock rows es := by
  obtain ⟨taken, rfl, hk⟩ := readMapping_keys h
  exact ⟨d, taken, left, hs, h, hk⟩

/-- Where a mapping comes from: it is a block whose entries were collected, or it is
written in the text of a row. -/
inductive Origin (rows : List Row) : List (String × Value) → Prop where
  | block {written : List (String × Value)} (h : IsBlock rows written) :
      Origin rows (collect written)
  | inline {r : Row} {es : List (String × Value)} (hr : r ∈ rows)
      (h : WrittenInline r.text es) : Origin rows es

theorem Origin.mono {rows' : List Row} (h : Origin rows es) (hr : rows <:+ rows') :
    Origin rows' es := by
  cases h with
  | block h =>
      obtain ⟨d, taken, left, hs, h⟩ := h
      exact .block ⟨d, taken, left, hs.mono hr, h⟩
  | inline hm h => exact .inline (hr.subset hm) h

theorem Row.text_behindDash_isInfix (r : Row) : r.behindDash.text <:+: r.text :=
  ((List.dropWhile_suffix isBlank).trans (List.tail_suffix r.text)).isInfix

mutual

theorem readBlock_origin (d : Nat) (row : Row) (rest : List Row) {v : Value}
    {left : List Row} (h : (readBlock d (row :: rest)).result = .ok (v, left))
    {es : List (String × Value)} (he : v.Holds es) :
    Origin (row :: rest) es := by
  rw [result_readBlock_cons] at h
  split at h
  · obtain ⟨p, hp, hv⟩ := map_eq_ok.1 h
    cases hv
    obtain ⟨w, hw, he⟩ := holds_list_iff.1 he
    exact readSequence_origin d (row :: rest) hp hw he
  · obtain ⟨p, hp, hv⟩ := map_eq_ok.1 h
    cases hv
    rcases holds_map_iff.1 he with rfl | ⟨e, hm, he⟩
    · exact .block (isBlock_of_readMapping (.row List.suffix_rfl) hp)
    · exact readMapping_origin d (row :: rest) hp (mem_of_mem_collect hm) he
termination_by (rest.length + 1, 1)
decreasing_by
  all_goals exact Prod.Lex.right _ (by decide)

theorem readBelow_origin (d : Nat) (rows : List Row) {v : Value} {left : List Row}
    (h : (readBelow d rows).result = .ok (v, left)) {es : List (String × Value)}
    (he : v.Holds es) :
    Origin rows es := by
  match rows with
  | [] =>
      rw [result_readBelow_nil] at h
      cases h
      cases he
  | next :: rest =>
      rw [result_readBelow_cons] at h
      split at h
      · exact readBlock_origin next.indent next rest h he
      · split at h
        · obtain ⟨p, hp, hv⟩ := map_eq_ok.1 h
          cases hv
          obtain ⟨w, hw, he⟩ := holds_list_iff.1 he
          exact readSequence_origin d (next :: rest) hp hw he
        · cases h
          cases he
termination_by (rows.length, 2)
decreasing_by
  all_goals exact Prod.Lex.right _ (by decide)

theorem readBehind_origin (d : Nat) (rows : List Row) {v : Value} {left : List Row}
    (h : readBehind d rows = .ok (v, left)) {es : List (String × Value)}
    (he : v.Holds es) : Origin rows es := by
  match rows with
  | [] =>
      cases h
      cases he
  | next :: rest =>
      rw [readBehind] at h
      split at h
      · exact readBlock_origin next.indent next rest h he
      · cases h
        cases he
termination_by (rows.length, 2)
decreasing_by
  exact Prod.Lex.right _ (by decide)

/-- The value of an entry stands in the text of its row or below. -/
theorem readEntry_origin (d : Nat) (row : Row) (rest : List Row) {e : String × Value}
    {left : List Row} (h : (readEntry d row rest).result = .ok (e, left))
    {es : List (String × Value)} (he : e.2.Holds es) :
    WrittenInline row.text es ∨ Origin rest es := by
  rw [result_readEntry] at h
  split at h
  · cases h
  · rename_i key text hk
    obtain ⟨name, -, h⟩ := bind_eq_ok.1 h
    split at h
    · obtain ⟨p, hp, hv⟩ := map_eq_ok.1 h
      cases hv
      exact .inr (readBelow_origin d rest hp he)
    · obtain ⟨v, hv, hp⟩ := map_eq_ok.1 h
      cases hp
      exact .inl ((readInline_writtenInline text (Row.inline_eq_ok.1 hv) he).mono
        (infix_of_splitKey? hk))
termination_by (rest.length, 3)
decreasing_by
  exact Prod.Lex.right _ (by decide)

theorem readMapping_origin (d : Nat) (rows : List Row) {fs : List (String × Value)}
    {left : List Row} (h : (readMapping d rows).result = .ok (fs, left))
    {e : String × Value} (hm : e ∈ fs) {es : List (String × Value)} (he : e.2.Holds es) :
    Origin rows es := by
  match rows with
  | [] =>
      rw [result_readMapping_nil] at h
      cases h
      cases hm
  | row :: rest =>
      rw [result_readMapping_cons] at h
      split at h
      · cases h
        cases hm
      · split at h
        · cases h
        · obtain ⟨p, hp, h⟩ := bind_eq_ok.1 h
          obtain ⟨q, hq, hv⟩ := map_eq_ok.1 h
          cases hv
          have hl := length_le_of_result hp
          have hsuffix : rest <:+ row :: rest := List.suffix_cons row rest
          rcases List.mem_cons.1 hm with rfl | hm
          · rcases readEntry_origin d row rest hp he with hw | ho
            · exact .inline List.mem_cons_self hw
            · exact ho.mono hsuffix
          · have hleft := (readEntry_takes d row rest hp).suffix
            exact (readMapping_origin d p.2 hq hm he).mono (hleft.trans hsuffix)
termination_by (rows.length, 0)
decreasing_by
  · exact Prod.Lex.left _ _ (by simp)
  · exact Prod.Lex.left _ _ (by simp only [List.length_cons]; omega)

theorem readSequence_origin (d : Nat) (rows : List Row) {vs : List Value}
    {left : List Row} (h : (readSequence d rows).result = .ok (vs, left)) {v : Value}
    (hm : v ∈ vs) {es : List (String × Value)} (he : v.Holds es) : Origin rows es := by
  match rows with
  | [] =>
      rw [result_readSequence_nil] at h
      cases h
      cases hm
  | row :: rest =>
      rw [result_readSequence_cons] at h
      split at h
      · cases h
      · split at h
        · cases h
          cases hm
        · rename_i hin hout
          obtain ⟨p, hp, h⟩ := bind_eq_ok.1 h
          obtain ⟨q, hq, hv⟩ := map_eq_ok.1 h
          cases hv
          have hl := length_le_of_result hp
          rcases List.mem_cons.1 hm with rfl | hm
          · exact readSequenceItem_origin d row rest hp he
          · have hd : d ≤ row.indent := by
              simp at hout
              exact hout.1
            have hleft := (readSequenceItem_takes d row rest hd hp).suffix
            exact (readSequence_origin d p.2 hq hm he).mono
              (hleft.trans (List.suffix_cons row rest))
termination_by (rows.length, 0)
decreasing_by
  · exact Prod.Lex.left _ _ (by simp)
  · exact Prod.Lex.left _ _ (by simp only [List.length_cons]; omega)

theorem readSequenceItem_origin (d : Nat) (row : Row) (rest : List Row) {v : Value}
    {left : List Row} (h : (readSequenceItem d row rest).result = .ok (v, left))
    {es : List (String × Value)} (he : v.Holds es) :
    Origin (row :: rest) es := by
  have hsuffix : rest <:+ row :: rest := List.suffix_cons row rest
  have hinline (hw : WrittenInline row.behindDash.text es) : Origin (row :: rest) es :=
    .inline List.mem_cons_self (hw.mono row.text_behindDash_isInfix)
  rw [result_readSequenceItem] at h
  split at h
  · exact (readBehind_origin d rest h he).mono hsuffix
  · split at h
    · split at h
      · cases h
      · rename_i hitem
        obtain ⟨p, hp, h⟩ := bind_eq_ok.1 h
        obtain ⟨q, hq, hv⟩ := map_eq_ok.1 h
        cases hv
        have hl := length_le_of_result hp
        have hleft := (readEntry_takes row.behindDash.indent row.behindDash
          rest hp).suffix
        rcases holds_map_iff.1 he with rfl | ⟨e, hm, he⟩
        · -- behind the dash the row is the first of a mapping at the column of its text
          have hblock : (readMapping row.behindDash.indent
              (row.behindDash :: rest)).result = .ok (p.1 :: q.1, q.2) := by
            rw [result_readMapping_cons, if_neg (by simp [hitem]),
              if_neg (Nat.lt_irrefl _), hp]
            exact map_eq_ok.2 ⟨q, hq, rfl⟩
          exact .block (isBlock_of_readMapping (.dash List.suffix_rfl) hblock)
        · rcases List.mem_cons.1 (mem_of_mem_collect hm) with rfl | hm
          · rcases readEntry_origin row.behindDash.indent row.behindDash rest hp
              he with hw | ho
            · exact hinline hw
            · exact ho.mono hsuffix
          · exact (readMapping_origin row.behindDash.indent p.2 hq hm he).mono
              (hleft.trans hsuffix)
    · obtain ⟨w, hw, hv⟩ := map_eq_ok.1 h
      cases hv
      exact hinline (readInline_writtenInline row.behindDash.text
        (Row.inline_eq_ok.1 hw) he)
termination_by (rest.length, 4)
decreasing_by
  · exact Prod.Lex.right _ (by decide)
  · exact Prod.Lex.right' _ hl (by decide)
  · exact Prod.Lex.right _ (by decide)

end

/-! ## Declarations -/

theorem infix_of_rowOfLine {n : Nat} {line : List Char} {r : Row}
    (h : rowOfLine n line = .ok (some r)) :
    r.text <:+: line := by
  have hend := trimEnd_prefix (uncommented true none line)
  have hcontent : trimEnd (uncommented true none line) <:+: line :=
    (hend.trans (uncommented_isPrefix true none line)).isInfix
  rw [rowOfLine] at h
  split at h
  · cases h
  · dsimp only at h
    split at h
    · cases h
    · cases h
      exact (List.dropWhile_suffix _).isInfix.trans hcontent

theorem exists_line_of_mem_rows {n : Nat} {lines : List (List Char)} {rows : List Row}
    (h : rowsFrom n lines = .ok rows) {r : Row} (hr : r ∈ rows) :
    ∃ line ∈ lines, r.text <:+: line := by
  induction lines generalizing n rows with
  | nil =>
      cases h
      cases hr
  | cons line lines ih =>
      rw [rowsFrom_cons] at h
      obtain ⟨row, hrow, h⟩ := bind_eq_ok.1 h
      obtain ⟨rows', hrows, rfl⟩ := map_eq_ok.1 h
      rcases List.mem_append.1 hr with hr | hr
      · have hsome : row = some r := by simpa using hr
        exact ⟨line, List.mem_cons_self, infix_of_rowOfLine (hsome ▸ hrow)⟩
      · obtain ⟨line', hl, hi⟩ := ih hrows hr
        exact ⟨line', List.mem_cons_of_mem line hl, hi⟩

theorem isBlock_of_readRows (h : readRows rows = .ok es) : IsBlock rows es := by
  cases rows with
  | nil =>
      cases h
      exact ⟨0, [], [], .row List.suffix_rfl, result_readMapping_nil 0, rfl⟩
  | cons row rest =>
      exact isBlock_of_readMapping (.row List.suffix_rfl) (exists_of_readRows_cons h).2

/-- Every mapping of a declaration is a block that was collected, or it
is what a line says. -/
theorem origin_of_read {n : Nat} {lines : List String} {m : Metadata}
    (h : read n lines = .ok m) (hm : m.Holds es) :
    ∃ rows, rowsFrom n (lines.map String.toList) = .ok rows ∧ Origin rows es := by
  obtain ⟨rows, written, hrows, hread, rfl⟩ := exists_of_read h
  refine ⟨rows, hrows, ?_⟩
  rcases holds_map_iff.1 hm with rfl | ⟨e, he, hm⟩
  · exact .block (isBlock_of_readRows hread)
  · cases rows with
    | nil =>
        cases hread
        cases he
    | cons row rest =>
        exact readMapping_origin row.indent (row :: rest)
          (exists_of_readRows_cons hread).2 (mem_of_mem_collect he) hm

/-- The mapping is a block, with every key once and the value that was
written under it last. -/
def IsLastWritten (rows : List Row) (es : List (String × Value)) : Prop :=
  ∃ written, IsBlock rows written ∧ es = collect written ∧ (Table.names es).Nodup ∧
    ∀ key, es.lookup key = written.reverse.lookup key

/-- A mapping of a declaration is a block, in which a key stands once and with the value
it was given last, or it is what a flow mapping or a pair of a line says, and there a
key stands as often as it is written.  So the keys of all mappings are distinct exactly
if no flow mapping gives one twice. -/
theorem keys_distinct_iff (n : Nat) (lines : List String) (m : Metadata)
    (h : read n lines = .ok m) :
    (∃ rows, rowsFrom n (lines.map String.toList) = .ok rows ∧ ∀ es, m.Holds es →
      IsLastWritten rows es ∨ ∃ line ∈ lines, WrittenInline line.toList es) ∧
    ((∀ es, m.Holds es → (Table.names es).Nodup) ↔
      ∀ es, m.Holds es →
      ∀ line ∈ lines, ∀ inner, '{' :: (inner ++ ['}']) <:+: line.toList →
        readPairs (flowParts inner) = .ok es →
        ((flowParts inner).map partKey?).Nodup) := by
  obtain ⟨rows, hrows, hread⟩ : ∃ rows, rowsFrom n (lines.map String.toList) = .ok rows ∧
    ∀ es, m.Holds es →
      Origin rows es := by
    obtain ⟨rows, hrows, -⟩ := origin_of_read h (.self m.entries)
    refine ⟨rows, hrows, ?_⟩
    intro es hes
    obtain ⟨rows', hrows', ho⟩ := origin_of_read h hes
    rw [hrows] at hrows'
    cases hrows'
    exact ho
  have horigin : ∀ es, m.Holds es → IsLastWritten rows es ∨
      ∃ line ∈ lines, WrittenInline line.toList es := by
    intro es hes
    cases hread es hes with
    | block hb => exact .inl ⟨_, hb, rfl, nodup_names_collect _, lookup_collect _⟩
    | inline hr hw =>
        obtain ⟨_, hl, hi⟩ := exists_line_of_mem_rows hrows hr
        obtain ⟨line, hline, rfl⟩ := List.mem_map.1 hl
        exact .inr ⟨line, hline, hw.mono hi⟩
  refine ⟨⟨rows, hrows, horigin⟩, ?_, ?_⟩
  · intro hdistinct es hes line _ inner _ hinner
    rw [map_partKey? hinner]
    exact (hdistinct es hes).map (Option.some_injective String)
  · intro hflow es hes
    rcases horigin es hes with ⟨_, _, _, hnodup, _⟩ | ⟨line, hline, hw⟩
    · exact hnodup
    · cases hw with
      | mapping hs hr =>
          have hkeys := hflow es hes line hline _ hs hr
          rw [map_partKey? hr] at hkeys
          exact List.Nodup.of_map _ hkeys
      | pair => exact List.nodup_singleton _

/-- A mapping behind a dash gives `a` twice: the keys are distinct, as no
flow mapping is there. -/
theorem keys_distinct_iff_item :
    read 1 ["k:", "  - a: 1", "    a: 2"] = .ok ⟨[("k", .list [.map [("a", .int 2)]])]⟩ ∧
      ∀ es, Metadata.Holds ⟨[("k", .list [.map [("a", .int 2)]])]⟩ es →
      (Table.names es).Nodup := by
  have hk : IsKey "k" := ⟨by decide, rfl, rfl, by decide⟩
  have ha : IsKey "a" := ⟨by decide, rfl, rfl, by decide⟩
  have hone : IsWord "1" := ⟨by decide, rfl⟩
  have htwo : IsWord "2" := ⟨by decide, rfl⟩
  have hrows : rowsFrom 1 (["k:", "  - a: 1", "    a: 2"].map String.toList) =
      .ok [⟨1, 0, "k".toList ++ [':']⟩,
        ⟨2, 2, '-' :: ' ' :: ("a".toList ++ ':' :: ' ' :: ['1'])⟩,
        ⟨3, 4, "a".toList ++ ':' :: ' ' :: ['2']⟩] := rfl
  have hother : Leaves (readMapping 4 [⟨3, 4, "a".toList ++ ':' :: ' ' :: ['2']⟩])
      [("a", .int 2)] [] :=
    readMapping_entry rfl rfl (readEntry_legible ha (.of_isWord htwo))
      (readMapping_outside (outside_nil 4))
  have hitem : Leaves (readSequenceItem 2
      ⟨2, 2, '-' :: ' ' :: ("a".toList ++ ':' :: ' ' :: ['1'])⟩ _)
      (.map [("a", .int 2)]) [] :=
    readSequenceItem_word ha.isWord (.of_isWord hone) hother
  have hitems := readSequence_item (d := 2) rfl rfl hitem
    (readSequence_outside (outside_nil 2))
  have hbelow := readBelow_sequence (d := 0) (by decide) rfl hitems
  have hread : read 1 ["k:", "  - a: 1", "    a: 2"] =
      .ok ⟨[("k", .list [.map [("a", .int 2)]])]⟩ :=
    read_of_readRows hrows (readRows_of_readMapping rfl
      (readMapping_entry rfl rfl (readEntry_key hk hbelow)
        (readMapping_outside (outside_nil 0))))
  have hnone : ∀ line ∈ ["k:", "  - a: 1", "    a: 2"], '{' ∉ line.toList := by decide
  refine ⟨hread, (keys_distinct_iff 1 _ _ hread).2.2 ?_⟩
  intro es _ line hline inner hi
  exact absurd (hi.subset List.mem_cons_self) (hnone line hline)

/-- A flow mapping keeps a key that is given again. -/
theorem flow_mapping_repeats_key :
    ¬ ∀ n lines m, read n lines = .ok m → ∀ es, m.Holds es → (Table.names es).Nodup := by
  intro hall
  have hk : IsWord "k" := ⟨by decide, rfl⟩
  have ha : IsWord "a" := ⟨by decide, rfl⟩
  have hone : IsWord "1" := ⟨by decide, rfl⟩
  have htwo : IsWord "2" := ⟨by decide, rfl⟩
  have hparts : flowParts "a: 1, a: 2".toList = ["a: 1".toList, "a: 2".toList] := by
    decide
  have hpairs : readPairs ["a: 1".toList, "a: 2".toList] =
      .ok [("a", .int 1), ("a", .int 2)] := by
    have hfirst : readPair "a: 1".toList = .ok ("a", .int 1) :=
      readPair_append ha (.of_isWord hone)
    have hsecond : readPair "a: 2".toList = .ok ("a", .int 2) :=
      readPair_append ha (.of_isWord htwo)
    rw [readPairs, hfirst, readPairs, hsecond, readPairs]
    rfl
  have hvalue : readInline ('{' :: ("a: 1, a: 2".toList ++ ['}'])) =
      .ok (.map [("a", .int 1), ("a", .int 2)]) := by
    rw [readInline_braces, hparts, hpairs]
    rfl
  have hrows : rowsFrom 1 (["k: \x7ba: 1, a: 2\x7d"].map String.toList) =
      .ok [⟨1, 0, 'k' :: ':' :: ' ' :: '{' :: ("a: 1, a: 2".toList ++ ['}'])⟩] := rfl
  have hread : read 1 ["k: \x7ba: 1, a: 2\x7d"] =
      .ok ⟨[("k", .map [("a", .int 1), ("a", .int 2)])]⟩ :=
    read_of_readRows hrows (readRows_of_readMapping rfl
      (readMapping_entry rfl rfl (readEntry_inline rfl hk.readKey_eq (by decide) hvalue)
        (readMapping_outside (outside_nil 0))))
  have htwice := hall 1 _ _ hread [("a", .int 1), ("a", .int 2)]
    (.entry (List.mem_singleton.2 rfl) (.self _))
  exact absurd htwice (by decide)

end NotebookService.Metadata
