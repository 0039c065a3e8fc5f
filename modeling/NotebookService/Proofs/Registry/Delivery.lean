/-
# `NotebookService.Proofs.Registry.Delivery` — a text arrives once

What a delivery does is the list of calls it makes, so that is what is counted:
`Called.on` are the calls made on one connection, and a text *reaches* some targets when
each of them is called once, with the text, and nobody else is called at all.  How the
calls were answered does not come into it.  That is the isolation of failures: it holds
for all answers, so no connection's fault costs another one its text.

A fan-out writes to whatever list it is given, twice to a connection that is listed
twice.  That no connection is, is the last clause of `WellFormed`, and the only thing
about the registry used here.  It says nothing of an order, and neither do the results.
-/
import NotebookService.Proofs.Registry.History

namespace NotebookService.Registry

variable {Conn : Type}

/-! ## Counting calls -/

namespace Called

variable {α : Type}

/-- The calls made on a connection. -/
def on [DecidableEq Conn] (called : Called Conn α) (conn : Conn) : List Call :=
  (called.calls.filter (·.1 = conn)).map (·.2)

/-- The number of calls that succeeded. -/
def taken (answers : Answers Conn) (called : Called Conn α) : Nat :=
  called.calls.countP fun c => (answers c.1 c.2).isNone

/-- Every target is called once, with the text, and no one else is called. -/
def Reaches [DecidableEq Conn] (called : Called Conn α) (text : String)
    (targets : Conn → Prop) : Prop :=
  ∀ conn, (targets conn → called.on conn = [.send text]) ∧
    (¬ targets conn → called.on conn = [])

theorem Reaches.congr [DecidableEq Conn] {called : Called Conn α} {text : String}
    {targets targets' : Conn → Prop} (h : called.Reaches text targets)
    (ht : ∀ conn, targets' conn ↔ targets conn) : called.Reaches text targets' :=
  fun conn => ⟨fun hc => (h conn).1 ((ht conn).1 hc), fun hc => (h conn).2 fun hc' =>
    hc ((ht conn).2 hc')⟩

end Called

/-! ## Writing to a list -/

variable (answers : Answers Conn) (text : String)

theorem calls_writeAll (conns : List Conn) :
    (writeAll answers text conns).calls = conns.map (·, .send text) := by
  induction conns with
  | nil => rfl
  | cons c conns ih =>
      rw [writeAll, List.map_cons, ← ih]
      cases answers c (.send text) <;> rfl

theorem value_writeAll (conns : List Conn) :
    (writeAll answers text conns).value = conns.countP fun c =>
      (answers c (.send text)).isNone := by
  induction conns with
  | nil => rfl
  | cons c conns ih =>
      rw [writeAll, List.countP_cons, ← ih]
      cases answers c (.send text) <;> rfl

theorem value_writeAll_eq_taken (conns : List Conn) :
    (writeAll answers text conns).value =
      (writeAll answers text conns).taken answers := by
  rw [Called.taken, calls_writeAll, value_writeAll, List.countP_map]
  rfl

/-- The order does not matter for the count. -/
theorem value_writeAll_perm {conns order : List Conn} (h : order.Perm conns) :
    (writeAll answers text order).value = (writeAll answers text conns).value := by
  rw [value_writeAll, value_writeAll]
  exact h.countP_eq _

/-! ## Addressed texts -/

variable {r : Registry Conn}

theorem length_calls_send_client_le (room : Option String) (id : String) :
    (send answers r text room (some id)).calls.length ≤ 1 := by
  rw [send]
  cases r.connection? (room.getD defaultRoom) id with
  | none => exact Nat.zero_le 1
  | some c => exact Nat.le_refl 1

theorem WellFormed.value_send_client (h : r.WellFormed) {room : Option String}
    {id : String} {conn : Conn} (hc : r.Holds (room.getD defaultRoom) id conn) :
    (send answers r text room (some id)).value =
      match answers conn (.send text) with
      | none => .ok 1
      | some fault => .error fault := by
  rw [send, h.holds_iff.1 hc]
  rfl

theorem WellFormed.send_no_client (h : r.WellFormed) {room : Option String} {id : String}
    (hn : ∀ conn, ¬ r.Holds (room.getD defaultRoom) id conn) :
    send answers r text room (some id) = ⟨.ok 0, []⟩ := by
  have hc : r.connection? (room.getD defaultRoom) id = none :=
    Option.eq_none_iff_forall_not_mem.2 fun conn hc => hn conn (h.holds_iff.2 hc)
  rw [send, hc]

theorem WellFormed.value_send_no_client (h : r.WellFormed) {room : Option String}
    {id : String} (hn : ∀ conn, ¬ r.Holds (room.getD defaultRoom) id conn) :
    (send answers r text room (some id)).value = .ok 0 := by
  rw [h.send_no_client answers text hn]

/-! ## Who is reached -/

variable [DecidableEq Conn]

theorem on_writeAll (conns : List Conn) (conn : Conn) :
    (writeAll answers text conns).on conn =
      List.replicate (conns.count conn) (.send text) := by
  rw [Called.on, calls_writeAll]
  induction conns with
  | nil => rfl
  | cons c conns ih =>
      by_cases hc : c = conn
      · subst hc
        simpa [List.replicate_succ] using ih
      · simpa [hc, List.count_cons_of_ne hc] using ih

/-- Connections listed once are reached, whatever they answer. -/
theorem writeAll_reaches {conns : List Conn} (h : conns.Nodup) :
    (writeAll answers text conns).Reaches text (· ∈ conns) := by
  intro conn
  rw [on_writeAll]
  constructor
  · intro hm
    rw [List.count_eq_one_of_mem h hm]
    rfl
  · intro hm
    rw [List.count_eq_zero_of_not_mem hm]
    rfl

theorem WellFormed.writeAll_room_reaches (h : r.WellFormed) {name : String}
    {order : List Conn} (ho : order.Perm (r.room name).connections) :
    (writeAll answers text order).Reaches text fun conn => ∃ id,
      r.Holds name id conn := by
  have hn := ho.nodup_iff.2 (h.nodup_room_connections name)
  refine (writeAll_reaches answers text hn).congr fun conn => ?_
  rw [ho.mem_iff, h.mem_room_connections]

theorem WellFormed.writeAll_reaches_all (h : r.WellFormed) {order : List Conn}
    (ho : order.Perm r.connections) :
    (writeAll answers text order).Reaches text fun conn => ∃ name id,
      r.Holds name id conn := by
  have hn := ho.nodup_iff.2 h.nodup_connections
  refine (writeAll_reaches answers text hn).congr fun conn => ?_
  rw [ho.mem_iff, mem_connections]

theorem writeOne_reaches (conn : Conn) :
    (writeOne answers text conn).Reaches text (conn = ·) := by
  intro c
  constructor
  · rintro rfl
    simp [Called.on, writeOne]
  · intro hc
    simp [Called.on, writeOne, hc]

theorem WellFormed.send_client_reaches (h : r.WellFormed) (room : Option String)
    (id : String) :
    (send answers r text room (some id)).Reaches text
      (r.Holds (room.getD defaultRoom) id) := by
  rw [send]
  cases hc : r.connection? (room.getD defaultRoom) id with
  | none =>
      intro conn
      have hn : ¬ r.Holds (room.getD defaultRoom) id conn := by simp [h.holds_iff, hc]
      exact ⟨fun hh => absurd hh hn, fun _ => rfl⟩
  | some c =>
      refine (writeOne_reaches answers text c).congr fun conn => ?_
      rw [h.holds_iff, hc, Option.some_inj]

/-! ## Exactly once -/

/-- Whether an operation is there to change the registry. -/
def Action.isMove : Action Conn → Bool
  | .connect _ _ _ | .disconnect _ _ => true
  | .send _ _ _ | .broadcast _ | .route _ | .reportFault _ _ => false

theorem next_of_not_isMove (r : Registry Conn) {s : Step Conn}
    (h : s.action.isMove = false) :
    next r s = r := by
  obtain ⟨w, a⟩ := s
  cases a <;> first | rfl | exact absurd h (by simp [Action.isMove])

/-- After every run and for all answers, a text for a room reaches the members of that
room, a text for everyone reaches everyone, and both in whatever order the connections
are gone through; the count is that of the writes that succeeded.  A text for a client
reaches the connection under that room and id and its fault comes back; where there is
none, no one is called.  None of it changes the registry. -/
theorem delivery_exactly_once (steps : List (Step Conn)) :
    (∀ room,
      (send answers (after steps) text room none).Reaches text
        (fun conn => ∃ id, (after steps).Holds (room.getD defaultRoom) id conn) ∧
      (send answers (after steps) text room none).value =
        .ok ((send answers (after steps) text room none).taken answers)) ∧
    ((broadcast answers (after steps) text).Reaches text
        (fun conn => ∃ name id, (after steps).Holds name id conn) ∧
      (broadcast answers (after steps) text).value =
        (broadcast answers (after steps) text).taken answers) ∧
    (∀ room id,
      (send answers (after steps) text room (some id)).Reaches text
        ((after steps).Holds (room.getD defaultRoom) id) ∧
      (send answers (after steps) text room (some id)).calls.length ≤ 1 ∧
      (∀ conn, (after steps).Holds (room.getD defaultRoom) id conn →
        (send answers (after steps) text room (some id)).value =
          match answers conn (.send text) with
          | none => .ok 1
          | some fault => .error fault) ∧
      ((∀ conn, ¬ (after steps).Holds (room.getD defaultRoom) id conn) →
        (send answers (after steps) text room (some id)).value = .ok 0)) ∧
    (∀ name order, order.Perm ((after steps).room name).connections →
      (writeAll answers text order).Reaches text (fun conn => ∃ id,
        (after steps).Holds name id conn) ∧
      (writeAll answers text order).value =
        (writeAll answers text ((after steps).room name).connections).value) ∧
    (∀ order, order.Perm (after steps).connections →
      (writeAll answers text order).Reaches text (fun conn => ∃ name id,
        (after steps).Holds name id conn) ∧
      (writeAll answers text order).value =
        (broadcast answers (after steps) text).value) ∧
    (∀ s : Step Conn, s.action.isMove = false → after (steps ++ [s]) = after steps) := by
  have hw := wellFormed_after steps
  refine ⟨fun room => ?_, ?_, fun room id => ?_, fun name order ho => ?_,
    fun order ho => ?_, ?_⟩
  · exact ⟨hw.writeAll_room_reaches answers text (.refl _),
      congrArg Except.ok (value_writeAll_eq_taken answers text _)⟩
  · exact ⟨hw.writeAll_reaches_all answers text (.refl _),
      value_writeAll_eq_taken answers text _⟩
  · exact ⟨hw.send_client_reaches answers text room id,
      length_calls_send_client_le answers text room id,
      fun conn => hw.value_send_client answers text, hw.value_send_no_client answers text⟩
  · exact ⟨hw.writeAll_room_reaches answers text ho, value_writeAll_perm answers text ho⟩
  · exact ⟨hw.writeAll_reaches_all answers text ho, value_writeAll_perm answers text ho⟩
  · intro s hs
    rw [after_concat]
    exact next_of_not_isMove _ hs

end NotebookService.Registry
