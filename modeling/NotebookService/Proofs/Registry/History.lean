/-
# `NotebookService.Proofs.Registry.History` — membership is read off the history

Operations reach the registry one at a time, in any order, each in surroundings of its
own: connections may answer differently from one operation to the next, and any text may
be made up for an id.  So a run is a list of steps and nothing is assumed of it.

Of a run only the moves matter.  A connection that was accepted has joined a room under
an id, and a disconnect is a connection leaving a room; everything else, a refused
connect included, is no move.  A connection *stands* at a key when its last join was to
that key and no later move ended it:

* another join of the same connection, wherever to;
* a join of another connection to the same key;
* its leaving the room of the key.  Leaving another room ends nothing.

`registry_follows_history` says that a registry holds exactly what stands.  It needs no
freshness of the ids that are made up: the history records the id that was used, and two
connections that happen to get the same one are treated as two that brought it.
-/
import Mathlib.Data.List.Induction
import NotebookService.Proofs.Registry.Invariant
import NotebookService.Registry.Delivery

namespace NotebookService.Registry

variable {Conn : Type}

/-- One operation and where it is performed. -/
structure Step (Conn : Type) where
  surroundings : Surroundings Conn
  action : Action Conn

/-! ## Moves -/

inductive Move (Conn : Type) where
  | joined (conn : Conn) (name id : String)
  | left (conn : Conn) (name : String)

/-- The move that a step is. -/
def Step.move? (s : Step Conn) : Option (Move Conn) :=
  match s.action with
  | .connect conn room client =>
    match s.surroundings.answers conn .accept with
    | none =>
      some (.joined conn (room.getD defaultRoom) (client.getD s.surroundings.madeUp))
    | some _ => none
  | .disconnect conn room => some (.left conn (room.getD defaultRoom))
  | _ => none

/-- The moves of a run, in order. -/
def history (steps : List (Step Conn)) : List (Move Conn) := steps.filterMap Step.move?

/-- After the move a connection is no longer at a key, if it was there. -/
def Move.Ends (conn : Conn) (name id : String) : Move Conn → Prop
  | .joined c n i => c = conn ∨ (n = name ∧ i = id)
  | .left c n => c = conn ∧ n = name

/-- The last join of a connection was to a key, and nothing has ended it since. -/
def Standing (moves : List (Move Conn)) (conn : Conn) (name id : String) : Prop :=
  ∃ before after, moves = before ++ .joined conn name id :: after ∧
    ∀ m ∈ after, ¬ m.Ends conn name id

theorem not_standing_nil {conn : Conn} {name id : String} :
    ¬ Standing [] conn name id := by
  rintro ⟨before, after, h, -⟩
  simp at h

theorem standing_concat {moves : List (Move Conn)} {m : Move Conn} {conn : Conn}
    {name id : String} :
    Standing (moves ++ [m]) conn name id ↔
      m = .joined conn name id ∨ Standing moves conn name id ∧ ¬ m.Ends conn name id := by
  constructor
  · rintro ⟨before, after, h, hn⟩
    rcases after.eq_nil_or_concat' with rfl | ⟨after, m', rfl⟩
    · exact .inl (List.singleton_inj.1 (List.append_inj' h rfl).2)
    · rw [← List.cons_append, ← List.append_assoc] at h
      obtain ⟨rfl, hm⟩ := List.append_inj' h rfl
      cases hm
      exact .inr ⟨⟨before, after, rfl, fun m hm => hn m (by simp [hm])⟩, hn _ (by simp)⟩
  · rintro (rfl | ⟨⟨before, after, rfl, hn⟩, hm⟩)
    · exact ⟨moves, [], rfl, by simp⟩
    · refine ⟨before, after ++ [m], by simp, ?_⟩
      intro m' hm'
      rcases List.mem_append.1 hm' with h | h
      · exact hn m' h
      · rw [List.mem_singleton.1 h]
        exact hm

/-! ## Runs -/

section Run

variable [DecidableEq Conn]

/-- The registry after a step. -/
def next (r : Registry Conn) (s : Step Conn) : Registry Conn :=
  (perform s.surroundings r s.action).2

/-- The registry after a run. -/
def after (steps : List (Step Conn)) : Registry Conn := steps.foldl next empty

theorem after_concat (steps : List (Step Conn)) (s : Step Conn) :
    after (steps ++ [s]) = next (after steps) s := by
  simp [after]

/-- What a move does to a registry. -/
def Move.apply (r : Registry Conn) : Move Conn → Registry Conn
  | .joined conn name id => r.register name id conn
  | .left conn name => r.unregister name conn

/-- All that a step can do to the registry is its move. -/
theorem next_eq (r : Registry Conn) (s : Step Conn) :
    next r s = s.move?.elim r (·.apply r) := by
  obtain ⟨w, a⟩ := s
  cases a with
  | connect conn room client =>
      simp only [next, perform, connect, Step.move?]
      cases w.answers conn .accept <;> rfl
  | disconnect conn room => rfl
  | send text room client => rfl
  | broadcast text => rfl
  | route message => rfl
  | reportFault conn fault => rfl

theorem WellFormed.apply {r : Registry Conn} (h : r.WellFormed) (m : Move Conn) :
    (m.apply r).WellFormed := by
  cases m with
  | joined conn name id => exact h.register name id conn
  | left conn name => exact h.unregister name conn

theorem WellFormed.next {r : Registry Conn} (h : r.WellFormed) (s : Step Conn) :
    (next r s).WellFormed := by
  rw [next_eq]
  cases s.move? with
  | none => exact h
  | some m => exact h.apply m

theorem wellFormed_after (steps : List (Step Conn)) : (after steps).WellFormed := by
  induction steps using List.reverseRecOn with
  | nil => exact wellFormed_empty
  | append_singleton steps s ih =>
      rw [after_concat]
      exact ih.next s

/-- After a move a connection is where it has just joined, or it was there
before and has not left. -/
theorem WellFormed.holds_apply {r : Registry Conn} (h : r.WellFormed) {m : Move Conn}
    {conn : Conn} {name id : String} :
    (m.apply r).Holds name id conn ↔
      m = .joined conn name id ∨ r.Holds name id conn ∧ ¬ m.Ends conn name id := by
  rw [(h.apply m).holds_iff, h.holds_iff]
  cases m with
  | joined c n i =>
      rw [Move.apply, h.connection?_register_eq_some, Move.joined.injEq, Move.Ends]
      constructor
      · rintro (⟨⟨rfl, rfl⟩, rfl⟩ | ⟨hk, hc, hr⟩)
        · exact .inl ⟨rfl, rfl, rfl⟩
        · refine .inr ⟨hr, ?_⟩
          rintro (rfl | ⟨rfl, rfl⟩)
          · exact hc rfl
          · exact hk ⟨rfl, rfl⟩
      · rintro (⟨rfl, rfl, rfl⟩ | ⟨hr, hn⟩)
        · exact .inl ⟨⟨rfl, rfl⟩, rfl⟩
        · refine .inr ⟨fun hk => hn (.inr ⟨hk.1.symm, hk.2.symm⟩),
            fun hc => hn (.inl hc.symm), hr⟩
  | left c n =>
      rw [Move.apply, h.connection?_unregister_eq_some, Move.Ends, eq_comm (a := c),
        eq_comm (a := n)]
      simp [and_comm]

theorem holds_after_iff (steps : List (Step Conn)) (conn : Conn) (name id : String) :
    (after steps).Holds name id conn ↔ Standing (history steps) conn name id := by
  induction steps using List.reverseRecOn with
  | nil => exact iff_of_false (by simp [Holds, after, empty]) not_standing_nil
  | append_singleton steps s ih =>
      rw [after_concat, next_eq, history, List.filterMap_append, ← history]
      cases hm : s.move? with
      | none => simpa [hm] using ih
      | some m =>
          have hs : List.filterMap Step.move? [s] = [m] := by simp [hm]
          rw [Option.elim_some, hs, standing_concat,
            (wellFormed_after steps).holds_apply, ih]

/-! ## The history decides -/

/-- After every run no room is empty, a connection has at most one key, and it has
the key at which it stands.  In particular these three change nothing, or nothing for
anyone else: a connect that is refused, a disconnect from a room in which the
connection is not, and any disconnect, also that of a connection which was replaced,
as far as other connections go. -/
theorem registry_follows_history (steps : List (Step Conn)) :
    (∀ s ∈ (after steps).rooms, s.2 ≠ []) ∧
    (∀ conn name id name' id', (after steps).Holds name id conn →
      (after steps).Holds name' id' conn → name = name' ∧ id = id') ∧
    (∀ conn name id, (after steps).Holds name id conn ↔
      Standing (history steps) conn name id) ∧
    (∀ w conn room client, w.answers conn .accept ≠ none →
      after (steps ++ [⟨w, .connect conn room client⟩]) = after steps) ∧
    (∀ w conn room, (∀ id, ¬ (after steps).Holds (room.getD defaultRoom) id conn) →
      after (steps ++ [⟨w, .disconnect conn room⟩]) = after steps) ∧
    (∀ w conn room other name id, other ≠ conn → (after steps).Holds name id other →
      (after (steps ++ [⟨w, .disconnect conn room⟩])).Holds name id other) := by
  have hw := wellFormed_after steps
  refine ⟨hw.occupied, fun _ _ _ _ _ => hw.eq_of_holds, holds_after_iff steps, ?_, ?_, ?_⟩
  · intro w conn room client hr
    obtain ⟨fault, hf⟩ := Option.ne_none_iff_exists'.1 hr
    simp [after_concat, next_eq, Step.move?, hf]
  · intro w conn room hn
    rw [after_concat]
    exact hw.unregister_eq_self hn
  · intro w conn room other name id hne ho
    rw [after_concat]
    show (Move.apply (after steps) (.left conn (room.getD defaultRoom))).Holds name id
      other
    refine hw.holds_apply.2 (.inr ⟨ho, ?_⟩)
    rintro ⟨rfl, -⟩
    exact hne rfl

end Run

end NotebookService.Registry
