/-
# `NotebookService.Proofs.Metadata.Progress` — reading a declaration comes to an end

`Metadata.Rounds` has the block readers as two loops that share a cursor, with bounds on
their runs wherever they start.  Here it is shown that the two loops do end, and end
with what the readers make of the rows.  So the bounds are about `read`.

## From the readers to the loops

A loop is met at its head, with what it has collected so far and with the loops that
wait for it.  `Reaches` says that the loops come to the head of a given loop again, or
refuse a row; `Completes` says that the loop is done there.  What they come to is what a
reader makes of the rows, put to what was there before.  All readers are taken in one
induction, by the lengths that the readers themselves go down by
(`readMapping_completes` and its companions).

## What is proved

* `exists_reads`: the loops end on any rows, with the result of `readRows`.
* `Reads.read_eq`: they can end in no other way, so their rounds settle what is read.
* `read_progresses`: how many rounds there are, and which rows they put in place and
  take.
* `compact_key_refused_in_place`: a row that is put in place need not be taken or left to
  the loop for items.

The last one is about `- : b`.  The key is empty, and the loop for entries refuses it
before it has taken the row.
-/
import Mathlib.Logic.Relation
import NotebookService.Proofs.Metadata.Result
import NotebookService.Proofs.Metadata.Rounds
import NotebookService.Proofs.Metadata.Scalar

namespace NotebookService.Metadata

open NotebookService.Text

/-! ## Where the loops come to -/

namespace Cursor

variable {c d : Cursor} {ws : List Waiting} {x : Result Loop}

/-- Rounds lead from one cursor to the other. -/
def Leads : Cursor → Cursor → Prop :=
  Relation.ReflTransGen fun c d => c.round.next? = some d

/-- A row is refused in the end. -/
def Refused (c : Cursor) (r : Refusal) : Prop := ∃ d p, c.Leads d ∧ d.round = .refuses p r

/-- The loops come to the head of this loop with these rows left, or refuse a row. -/
def Reaches (c : Cursor) (ws : List Waiting) : Result Loop → Prop
  | .ok (loop, left) => ∃ p, c.Leads ⟨p, left, loop, ws⟩
  | .error r => c.Refused r

/-- As `Reaches`, and then this loop is done. -/
def Completes (c : Cursor) (ws : List Waiting) : Result Loop → Prop
  | .ok (loop, left) =>
    ∃ d : Cursor, c.Leads d ∧ d.rows = left ∧ d.loop = loop ∧ d.waiting = ws ∧
      d.round = d.leave
  | .error r => c.Refused r

theorem leads_of_round (h : c.round.next? = some d) : c.Leads d := .single h

theorem leads_of_call {w : Waiting} {rest : List Row} {loop : Loop}
    (h : c.round = c.call w rest loop) :
    c.Leads ⟨c.pos + 1, rest, loop, w :: c.waiting⟩ := leads_of_round (by rw [h]; rfl)

theorem reaches_of_take {w : Waiting} {rest : List Row} {v : Value}
    (h : c.round = c.take w rest v) :
    c.Reaches c.waiting (.ok (w.resume v, rest)) :=
  ⟨c.pos + 1, leads_of_round (by rw [h]; rfl)⟩

theorem refused_of_round {p : Nat} {r : Refusal} (h : c.round = .refuses p r) :
    c.Refused r := ⟨c, p, .refl, h⟩

theorem Leads.trans_refused (h : c.Leads d) {r : Refusal} (hr : d.Refused r) :
    c.Refused r := by
  obtain ⟨e, p, he, hr⟩ := hr
  exact ⟨e, p, h.trans he, hr⟩

theorem Leads.reaches (h : c.Leads d) (hx : d.Reaches ws x) : c.Reaches ws x := by
  match x with
  | .ok (loop, left) =>
      obtain ⟨p, hp⟩ := hx
      exact ⟨p, h.trans hp⟩
  | .error r => exact h.trans_refused hx

theorem Leads.completes (h : c.Leads d) (hx : d.Completes ws x) : c.Completes ws x := by
  match x with
  | .ok (loop, left) =>
      obtain ⟨e, he, hrest⟩ := hx
      exact ⟨e, h.trans he, hrest⟩
  | .error r => exact h.trans_refused hx

theorem Reaches.bind {α : Type} {y : Result α} {k : α × List Row → Loop × List Row}
    {f : α × List Row → Result Loop} (h : c.Reaches ws (y.map k))
    (hf : ∀ p a, y = .ok a → (⟨p, (k a).2, (k a).1, ws⟩ : Cursor).Completes ws (f a)) :
    c.Completes ws (y.bind f) := by
  match y with
  | .ok a =>
      obtain ⟨p, hp⟩ := h
      exact hp.completes (hf p a rfl)
  | .error r => exact h

/-- A loop that is done hands its value to the one that waits for it. -/
theorem Completes.reaches {w : Waiting} (h : c.Completes (w :: ws) x) :
    c.Reaches ws (x.map fun p => (w.resume p.1.value, p.2)) := by
  match x with
  | .ok (loop, left) =>
      obtain ⟨d, hd, rfl, rfl, hw, hround⟩ := h
      refine ⟨d.pos, hd.trans (leads_of_round ?_)⟩
      rw [hround, leave, hw]
      rfl
  | .error r => exact h

theorem reaches_inline {row : Row} {rest : List Row} {w : Waiting} {text : List Char}
    (h : c.round = c.inline w row rest text) :
    c.Reaches c.waiting ((row.inline (readInline text)).map fun v =>
      (w.resume v, rest)) := by
  unfold inline at h
  cases hv : readInline text with
  | error fault =>
      rw [hv] at h
      exact refused_of_round h
  | ok v =>
      rw [hv] at h
      exact reaches_of_take h

end Cursor

/-! ## The readers

One induction for all of them, as they call each other: what a reader makes of the rows
is what the loops come to. -/

open Cursor

/-- The value that a reader makes, given to the loop that waits for it. -/
def handTo (w : Waiting) (p : Value × List Row) : Loop × List Row := (w.resume p.1, p.2)

/-- The entry that a reader makes, put to those that the loop has. -/
def addEntry (d : Nat) (es : List (String × Value)) (p : (String × Value) × List Row) :
    Loop × List Row :=
  (.entries d (Table.put p.1.1 p.1.2 es), p.2)

/-- The entries that a reader makes, put to those that the loop has,
one after the other. -/
def addEntries (d : Nat) (es : List (String × Value))
    (p : List (String × Value) × List Row) : Loop × List Row :=
  (.entries d (p.1.foldl (fun es e => Table.put e.1 e.2 es) es), p.2)

/-- The items that a reader makes, behind those that the loop has. -/
def addItems (d : Nat) (vs : List Value) (p : List Value × List Row) : Loop × List Row :=
  (.items d (vs ++ p.1), p.2)

theorem addItems_concat (d : Nat) (vs : List Value) (v : Value) :
    addItems d (vs ++ [v]) = fun p => addItems d vs (v :: p.1, p.2) := by
  funext p
  simp [addItems]

theorem Cursor.Completes.reaches_list {c : Cursor} {d : Nat} {w : Waiting}
    {ws : List Waiting} {x : Result (List Value)}
    (h : c.Completes (w :: ws) (x.map (addItems d []))) :
    c.Reaches ws ((x.map fun p => (Value.list p.1, p.2)).map (handTo w)) := by
  have hr := h.reaches
  rw [result_map_map] at hr ⊢
  exact hr

theorem Cursor.Completes.reaches_map {c : Cursor} {d : Nat} {w : Waiting}
    {ws : List Waiting} {x : Result (List (String × Value))}
    (h : c.Completes (w :: ws) (x.map (addEntries d []))) :
    c.Reaches ws ((x.map fun p => (Value.map (collect p.1), p.2)).map (handTo w)) := by
  have hr := h.reaches
  rw [result_map_map] at hr ⊢
  exact hr

theorem round_entries (pos : Nat) {d : Nat} (es : List (String × Value)) {row : Row}
    (rest : List Row) (ws : List Waiting) (hd : row.indent = d)
    (hi : row.isItem = false) :
    (⟨pos, row :: rest, .entries d es, ws⟩ : Cursor).round =
      entry ⟨pos, row :: rest, .entries d es, ws⟩ d es row rest := by
  simp [Cursor.round, entryRound, hd, hi]

/-- A mapping at the column of its first row: the entry that the row begins, and
the others below it. -/
theorem completes_of_entry (pos : Nat) {d : Nat} (es : List (String × Value)) {row : Row}
    {rest : List Row} (ws : List Waiting) (hd : row.indent = d) (hi : row.isItem = false)
    (he : ∀ c : Cursor, c.round = c.entry d es row rest →
      c.Reaches c.waiting ((readEntry d row rest).result.map (addEntry d es)))
    (hm : ∀ p es left, left.length ≤ rest.length →
      (⟨p, left, .entries d es, ws⟩ : Cursor).Completes ws
        ((readMapping d left).result.map (addEntries d es))) :
    (⟨pos, row :: rest, .entries d es, ws⟩ : Cursor).Completes ws
      (((readEntry d row rest).result.bind fun p =>
        (readMapping d p.2).result.map fun q => (p.1 :: q.1, q.2)).map
        (addEntries d es)) := by
  rw [result_map_bind]
  refine (he _ (round_entries pos es rest ws hd hi)).bind ?_
  intro p a ha
  rw [result_map_map]
  exact hm p _ a.2 (length_le_of_result ha)

mutual

theorem readBlock_reaches (row : Row) (rest : List Row) (pos : Nat) (w : Waiting)
    (ws : List Waiting) :
    (⟨pos, row :: rest, blockLoop row, w :: ws⟩ : Cursor).Reaches ws
      ((readBlock row.indent (row :: rest)).result.map (handTo w)) := by
  rw [result_readBlock_cons]
  unfold blockLoop
  split
  · exact (readSequence_completes row.indent (row :: rest) [] pos (w :: ws)).reaches_list
  · exact (readMapping_completes row.indent (row :: rest) [] pos (w :: ws)).reaches_map
termination_by (rest.length + 1, 1)
decreasing_by
  all_goals exact Prod.Lex.right _ (by decide)

theorem readBelow_reaches (d : Nat) (rows : List Row) (w : Waiting) (c : Cursor)
    (h : c.round = c.below w d rows) :
    c.Reaches c.waiting ((readBelow d rows).result.map (handTo w)) := by
  match rows with
  | [] =>
      rw [result_readBelow_nil]
      exact reaches_of_take h
  | next :: rest =>
      rw [below] at h
      rw [result_readBelow_cons]
      split at h
      · rename_i hd
        rw [if_pos hd]
        exact (leads_of_call h).reaches
          (readBlock_reaches next rest (c.pos + 1) w c.waiting)
      · rename_i hd
        rw [if_neg hd]
        split at h
        · rename_i hi
          rw [if_pos hi]
          exact (leads_of_call h).reaches
            (readSequence_completes d (next :: rest) [] _ _).reaches_list
        · rename_i hi
          rw [if_neg hi]
          exact reaches_of_take h
termination_by (rows.length, 2)
decreasing_by
  all_goals exact Prod.Lex.right _ (by decide)

theorem readBehind_reaches (d : Nat) (rows : List Row) (w : Waiting) (c : Cursor)
    (h : c.round = c.behind w d rows) :
    c.Reaches c.waiting ((readBehind d rows).map (handTo w)) := by
  match rows with
  | [] => exact reaches_of_take h
  | next :: rest =>
      rw [behind] at h
      rw [readBehind]
      split at h
      · rename_i hd
        rw [if_pos hd]
        exact (leads_of_call h).reaches
          (readBlock_reaches next rest (c.pos + 1) w c.waiting)
      · rename_i hd
        rw [if_neg hd]
        exact reaches_of_take h
termination_by (rows.length, 2)
decreasing_by
  exact Prod.Lex.right _ (by decide)

theorem readEntry_reaches (d : Nat) (es : List (String × Value)) (row : Row)
    (rest : List Row) (c : Cursor) (h : c.round = c.entry d es row rest) :
    c.Reaches c.waiting ((readEntry d row rest).result.map (addEntry d es)) := by
  rw [result_readEntry]
  rw [entry] at h
  cases hk : splitKey? row.text with
  | none =>
      rw [hk] at h
      exact refused_of_round h
  | some split =>
      obtain ⟨key, text⟩ := split
      rw [hk] at h
      simp only [result_map_bind]
      cases hn : readKey key with
      | error fault =>
          simp only [hn] at h
          exact refused_of_round h
      | ok name =>
          simp only [hn] at h
          show c.Reaches c.waiting (Except.map _ (if _ then _ else _))
          split at h
          · rename_i ht
            rw [if_pos ht, result_map_map]
            exact readBelow_reaches d rest (.entry d es name) c h
          · rename_i ht
            rw [if_neg ht, result_map_map]
            exact reaches_inline h
termination_by (rest.length, 3)
decreasing_by
  exact Prod.Lex.right _ (by decide)

theorem readMapping_completes (d : Nat) (rows : List Row) (es : List (String × Value))
    (pos : Nat) (ws : List Waiting) :
    (⟨pos, rows, .entries d es, ws⟩ : Cursor).Completes ws
      ((readMapping d rows).result.map (addEntries d es)) := by
  match rows with
  | [] =>
      rw [result_readMapping_nil]
      exact ⟨_, .refl, rfl, rfl, rfl, rfl⟩
  | row :: rest =>
      rw [result_readMapping_cons]
      split
      · rename_i hout
        exact ⟨_, .refl, rfl, rfl, rfl, if_pos hout⟩
      · rename_i hout
        split
        · rename_i hin
          exact refused_of_round ((if_neg hout).trans (if_pos hin))
        · obtain ⟨hd, hi⟩ : row.indent = d ∧ row.isItem = false := by
            simp at hout
            have hd : row.indent = d := by omega
            exact ⟨hd, hout.2 hd⟩
          exact completes_of_entry pos es ws hd hi (readEntry_reaches d es row rest)
            fun p es left hl => readMapping_completes d left es p ws
termination_by (rows.length, 0)
decreasing_by
  · exact Prod.Lex.left _ _ (by simp)
  · exact Prod.Lex.left _ _ (by simp only [List.length_cons]; omega)

theorem readSequence_completes (d : Nat) (rows : List Row) (vs : List Value) (pos : Nat)
    (ws : List Waiting) :
    (⟨pos, rows, .items d vs, ws⟩ : Cursor).Completes ws
      ((readSequence d rows).result.map (addItems d vs)) := by
  match rows with
  | [] =>
      rw [result_readSequence_nil]
      refine ⟨_, .refl, rfl, ?_, rfl, rfl⟩
      rw [List.append_nil]
  | row :: rest =>
      rw [result_readSequence_cons]
      split
      · rename_i hin
        exact refused_of_round (if_pos hin)
      · rename_i hin
        split
        · rename_i hout
          refine ⟨_, .refl, rfl, ?_, rfl, (if_neg hin).trans (if_pos hout)⟩
          rw [List.append_nil]
        · rename_i hout
          have hitem := readSequenceItem_reaches d vs row rest ⟨pos, row :: rest,
            .items d vs, ws⟩
            ((if_neg hin).trans (if_neg hout))
          rw [result_map_bind]
          refine hitem.bind ?_
          intro p a ha
          have hl : a.2.length ≤ rest.length := length_le_of_result ha
          have hs := readSequence_completes d a.2 (vs ++ [a.1]) p ws
          rw [addItems_concat] at hs
          rw [result_map_map]
          exact hs
termination_by (rows.length, 0)
decreasing_by
  · exact Prod.Lex.left _ _ (by simp)
  · exact Prod.Lex.left _ _ (by simp only [List.length_cons]; omega)

theorem readSequenceItem_reaches (d : Nat) (vs : List Value) (row : Row) (rest : List Row)
    (c : Cursor) (h : c.round = c.item d vs row rest) :
    c.Reaches c.waiting
      ((readSequenceItem d row rest).result.map (handTo (.item d vs))) := by
  rw [result_readSequenceItem]
  unfold item at h
  split at h
  · rename_i ht
    rw [if_pos ht]
    exact readBehind_reaches d rest (.item d vs) c h
  · rename_i ht
    rw [if_neg ht]
    split at h
    · rename_i hk
      rw [if_pos hk]
      have hlead := leads_of_round (by rw [h]; rfl)
      cases hi : row.behindDash.isItem with
      | true =>
          obtain ⟨_, ⟨⟩, ⟨-, e, k, us, hd, -, he⟩ | ⟨hn, -⟩⟩ := round_of_reanchored h
          · exact hlead.trans_refused
              ((leads_of_round (by rw [hd]; rfl)).trans_refused (refused_of_round he))
          · rw [hi] at hn
            cases hn
      | false =>
          have hm := completes_of_entry c.pos [] (.item d vs :: c.waiting) rfl hi
            (readEntry_reaches row.behindDash.indent [] row.behindDash rest)
            fun p es left hl => readMapping_completes row.behindDash.indent left es p _
          have hr := hm.reaches_map
          rw [result_map_bind] at hr
          simp only [result_map_map] at hr
          rw [if_neg Bool.false_ne_true]
          exact hlead.reaches hr
    · rename_i hk
      rw [if_neg hk, result_map_map]
      exact reaches_inline h
termination_by (rest.length, 4)
decreasing_by
  · exact Prod.Lex.right _ (by decide)
  · exact Prod.Lex.right' _ hl (by decide)
  · exact Prod.Lex.right _ (by decide)

end

/-! ## The rounds of a declaration -/

/-- The head of the loop for the entries of a declaration, whose first
row sets the column. -/
def Cursor.start (first : Row) (rest : List Row) : Cursor :=
  ⟨0, first :: rest, .entries first.indent [], []⟩

/-- What the last round gives: a refusal, or the entries of the outermost loop, unless
it has left a row. -/
inductive Round.Gives : Round → Except Refusal Metadata → Prop where
  | refusal {p : Nat} {r : Refusal} : Gives (.refuses p r) (.error r)
  | rowLeft {c : Cursor} {row : Row} {rest : List Row} (h : c.rows = row :: rest) :
      Gives (.finishes c) (row.refuse .unexpectedIndentation)
  | read {c : Cursor} {d : Nat} {es : List (String × Value)} (h : c.rows = [])
      (hl : c.loop = .entries d es) :
      Gives (.finishes c) (.ok ⟨es⟩)

/-- The rounds in which the rows of a declaration are read, and what they give.  No loop
is called when there are no rows or the first one is an item. -/
inductive Reads : List Row → List Round → Except Refusal Metadata → Prop where
  | empty : Reads [] [] (.ok ⟨[]⟩)
  | listAtTop {first : Row} {rest : List Row} (h : first.isItem = true) :
      Reads (first :: rest) [] (first.refuse .listAtTop)
  | entries {first : Row} {rest : List Row} {rs : List Round} {last : Round}
      {x : Except Refusal Metadata}
      (h : first.isItem = false) (hr : Run (.start first rest) rs)
      (hlast : rs.getLast? = some last) (hx : last.Gives x) :
      Reads (first :: rest) rs x

/-- Where rounds lead from one cursor to the other, a run from the second is the end of
a run from the first. -/
theorem Cursor.Leads.run {c d : Cursor} {rs : List Round} (h : c.Leads d)
    (hr : Run d rs) :
    ∃ qs, Run c (qs ++ rs) := by
  induction h using Relation.ReflTransGen.head_induction_on with
  | refl => exact ⟨[], hr⟩
  | head hround _ ih =>
      obtain ⟨qs, hqs⟩ := ih
      exact ⟨_ :: qs, .step hround hqs⟩

theorem Cursor.Leads.exists_run {c d : Cursor} {last : Round} (h : c.Leads d)
    (hd : d.round = last) (hlast : last.next? = none) :
    ∃ rs, Run c rs ∧ rs.getLast? = some last := by
  subst hd
  obtain ⟨qs, hqs⟩ := h.run (.last hlast)
  exact ⟨_, hqs, List.getLast?_concat⟩

/-- The loops come to an end on any rows, and give what the readers make of them. -/
theorem exists_reads (rows : List Row) :
    ∃ rs, Reads rows rs ((readRows rows).map fun es => ⟨collect es⟩) := by
  cases rows with
  | nil => exact ⟨[], .empty⟩
  | cons first rest =>
      rw [readRows_cons]
      cases hi : first.isItem with
      | true => exact ⟨[], .listAtTop hi⟩
      | false =>
          rw [if_neg Bool.false_ne_true]
          have hm := readMapping_completes first.indent (first :: rest) [] 0 []
          cases hx : (readMapping first.indent (first :: rest)).result with
          | error r =>
              rw [hx] at hm
              obtain ⟨d, p, hlead, hd⟩ := hm
              obtain ⟨rs, hr, hlast⟩ := hlead.exists_run hd rfl
              exact ⟨rs, .entries hi hr hlast .refusal⟩
          | ok p =>
              obtain ⟨es, left⟩ := p
              rw [hx] at hm
              obtain ⟨d, hlead, hrows, hloop, hw, hd⟩ := hm
              rw [leave, hw] at hd
              obtain ⟨rs, hr, hlast⟩ := hlead.exists_run hd rfl
              cases left with
              | nil => exact ⟨rs, .entries hi hr hlast (.read hrows hloop)⟩
              | cons row left => exact ⟨rs, .entries hi hr hlast (.rowLeft hrows)⟩

theorem Round.Gives.unique {r : Round} {x y : Except Refusal Metadata} (h : r.Gives x)
    (hy : r.Gives y) : x = y := by
  cases h with
  | refusal =>
      cases hy
      rfl
  | rowLeft h =>
      cases hy with
      | rowLeft h' =>
          cases h.symm.trans h'
          rfl
      | read h' _ => cases h.symm.trans h'
  | read h hl =>
      cases hy with
      | rowLeft h' => cases h.symm.trans h'
      | read _ hl' =>
          cases hl.symm.trans hl'
          rfl

namespace Reads

variable {rows : List Row} {rs : List Round} {x : Except Refusal Metadata}

theorem unique {qs : List Round} {y : Except Refusal Metadata} (h : Reads rows qs x)
    (hy : Reads rows rs y) : qs = rs ∧ x = y := by
  cases h with
  | empty =>
      cases hy
      exact ⟨rfl, rfl⟩
  | listAtTop hi =>
      cases hy with
      | listAtTop _ => exact ⟨rfl, rfl⟩
      | entries hi' _ _ _ => cases hi.symm.trans hi'
  | entries hi hr hlast hx =>
      cases hy with
      | listAtTop hi' => cases hi.symm.trans hi'
      | entries _ hr' hlast' hx' =>
          cases hr.unique hr'
          cases hlast.symm.trans hlast'
          exact ⟨rfl, hx.unique hx'⟩

/-- What the loops give is what the lines of the rows are read as. -/
theorem read_eq {firstLine : Nat} {lines : List String} (h : Reads rows rs x)
    (hr : rowsFrom firstLine (lines.map String.toList) = .ok rows) :
    read firstLine lines = x := by
  obtain ⟨qs, hq⟩ := exists_reads rows
  rw [Metadata.read_eq, hr]
  exact (hq.unique h).2

theorem length_le (h : Reads rows rs x) : rs.length ≤ 2 * rows.length + calls rs := by
  cases h with
  | empty => exact Nat.zero_le _
  | listAtTop _ => exact Nat.zero_le _
  | entries _ hr _ _ => exact hr.length_le

theorem increasing (h : Reads rows rs x) : (reanchored rs).Pairwise (· < ·) := by
  cases h with
  | empty => exact .nil
  | listAtTop _ => exact .nil
  | entries _ hr _ _ => exact hr.increasing

/-- When a declaration is read, each of its rows was taken by a round of its own. -/
theorem taken (h : Reads rows rs x) {m : Metadata} (hx : x = .ok m) :
    rs.countP Round.isTaking = rows.length := by
  cases h with
  | empty => rfl
  | listAtTop _ => cases hx
  | entries _ hr hlast hgives =>
      cases hgives with
      | refusal => cases hx
      | rowLeft _ => cases hx
      | read hrows _ =>
          have htaken := hr.taken_add_left hlast
          rw [hrows] at htaken
          exact htaken

end Reads

/-- Reading a declaration comes to an end, after at most two rounds for each row and one
for each call of a loop.  A row that is put in place is taken in the next round, or it
is an item again and refused in the round after it, or its key is refused.  So no row is
put in place twice, and when the declaration is read all rows were taken. -/
theorem read_progresses (firstLine : Nat) (lines : List String) :
    (∃ r, rowsFrom firstLine (lines.map String.toList) = .error r ∧
      read firstLine lines = .error r) ∨
      ∃ rows, rowsFrom firstLine (lines.map String.toList) = .ok rows ∧
        (∃ rs, Reads rows rs (read firstLine lines)) ∧
        (∀ rs x, Reads rows rs x →
          rs.length ≤ 2 * rows.length + calls rs ∧ (reanchored rs).Pairwise (· < ·) ∧
            (∀ m, x = .ok m → rs.countP Round.isTaking = rows.length)) ∧
        ∀ c d : Cursor, c.round = .reanchors d → ∃ row, d.rows.head? = some row ∧
          (row.isItem = true ∧ d.Leaves row ∨ row.isItem = false ∧
            (d.Takes ∨ d.RefusesKey row)) := by
  rw [read_eq]
  cases rowsFrom firstLine (lines.map String.toList) with
  | error r => exact .inl ⟨r, rfl, rfl⟩
  | ok rows =>
      refine .inr ⟨rows, rfl, exists_reads rows, ?_, ?_⟩
      · intro rs x h
        exact ⟨h.length_le, h.increasing, fun m hx => h.taken hx⟩
      · intro c d h
        exact round_of_reanchored h

/-- Behind its dash, a row may have an empty key.  It is put in place, and then neither
taken nor left to the loop for items. -/
theorem compact_key_refused_in_place :
    ∃ first rest c d, rowsFrom 1 (["k:", "- : b"].map String.toList) =
      .ok (first :: rest) ∧
      (Cursor.start first rest).Leads c ∧ c.round = .reanchors d ∧ ¬ d.Takes ∧
      (∀ row, ¬ d.Leaves row) ∧
      read 1 ["k:", "- : b"] = .error ⟨2, .emptyKey⟩ := by
  let first : Row := ⟨1, 0, "k:".toList⟩
  let second : Row := ⟨2, 0, "- : b".toList⟩
  let c : Cursor := ⟨1, [second], .items 0 [], [.entry 0 [] "k"]⟩
  let d : Cursor := ⟨1, [⟨2, 2, ": b".toList⟩], .entries 2 [],
    [.item 0 [], .entry 0 [] "k"]⟩
  have hrows : rowsFrom 1 (["k:", "- : b"].map String.toList) = .ok [first, second] := rfl
  have hstart : (Cursor.start first [second]).round.next? = some c := by
    have hk : IsWord "k" := ⟨by decide, rfl⟩
    have hkey : splitKey? first.text = some (['k'], []) := rfl
    have hname : readKey ['k'] = .ok "k" := hk.readKey_eq
    rw [Cursor.start, round_entries 0 [] [second] [] rfl rfl, entry, hkey]
    simp only [hname]
    rfl
  have hputs : c.round = .reanchors d := rfl
  have hrefuses : d.round = .refuses 1 ⟨2, .emptyKey⟩ := by
    have hkey : splitKey? ": b".toList = some ([], ['b']) := rfl
    have hname : readKey [] = .error .emptyKey := by rw [readKey]; rfl
    rw [round_entries 1 [] [] _ rfl rfl, entry, hkey]
    simp only [hname]
  have hrun : Run (Cursor.start first [second])
      [(Cursor.start first [second]).round, c.round, d.round] :=
    .step hstart (.step (by rw [hputs]; rfl) (.last (by rw [hrefuses]; rfl)))
  have hreads : Reads [first, second] _ (.error ⟨2, .emptyKey⟩) :=
    .entries rfl hrun rfl (hrefuses ▸ .refusal)
  refine ⟨first, [second], c, d, hrows, leads_of_round hstart, hputs, ?_, ?_,
    hreads.read_eq hrows⟩
  · rw [Cursor.Takes, hrefuses]
    decide
  · rintro row ⟨e, k, vs, he, -, -⟩
    rw [hrefuses] at he
    cases he

end NotebookService.Metadata
