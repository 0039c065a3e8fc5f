/-
# `NotebookService.Proofs.Registry.Invariant` — what every registry keeps

A registry is stored as tables in a table, so it can say more than it should: the same
room twice, a client id twice in a room, a room with no one in it, a connection in two
places.  `WellFormed` excludes the four, and `register` and `unregister` preserve it.

Nothing else looks into the tables.  Both changes are described by the one function
`Registry.connection?`, who is under a room and an id, and `Holds`, which speaks of
stored entries, is the same thing on a well-formed registry.

The first two clauses are kept apart as `Keyed`: they alone make looking up and finding
an entry agree, and the lookup equations need no more.
-/
import Mathlib.Data.List.Nodup
import NotebookService.Registry.Basic

namespace NotebookService.Registry

variable {Conn : Type}

/-- A connection is stored under a room and an id. -/
def Holds (r : Registry Conn) (name id : String) (conn : Conn) : Prop :=
  ∃ members, (name, members) ∈ r.rooms ∧ (id, conn) ∈ members

/-- Every room and, within a room, every client id is stored once. -/
structure Keyed (r : Registry Conn) : Prop where
  names : (Table.names r.rooms).Nodup
  ids : ∀ s ∈ r.rooms, (Table.names s.2).Nodup

/-- Besides, no room is empty and no connection has two keys. -/
structure WellFormed (r : Registry Conn) : Prop extends Keyed r where
  occupied : ∀ s ∈ r.rooms, s.2 ≠ []
  once : ∀ {conn : Conn} {name id name' id' : String}, r.connection? name id = some conn →
    r.connection? name' id' = some conn → name = name' ∧ id = id'

theorem wellFormed_empty : (empty : Registry Conn).WellFormed where
  names := List.nodup_nil
  ids := fun _ h => absurd h List.not_mem_nil
  occupied := fun _ h => absurd h List.not_mem_nil
  once := fun h => by simp [connection?, room, empty] at h

/-! ## Entries and lookups -/

theorem Keyed.mem_room {r : Registry Conn} (h : r.Keyed) {name : String}
    {m : String × Conn} :
    m ∈ r.room name ↔ ∃ members, (name, members) ∈ r.rooms ∧ m ∈ members := by
  simp only [← Table.lookup_eq_some_iff_mem h.names, room]
  cases r.rooms.lookup name <;> simp

theorem Keyed.nodup_ids_room {r : Registry Conn} (h : r.Keyed) (name : String) :
    (Table.names (r.room name)).Nodup := by
  unfold room
  cases hl : r.rooms.lookup name with
  | none => exact List.nodup_nil
  | some members => exact h.ids _ ((Table.lookup_eq_some_iff_mem h.names).1 hl)

theorem Keyed.holds_iff {r : Registry Conn} (h : r.Keyed) {name id : String}
    {conn : Conn} :
    r.Holds name id conn ↔ r.connection? name id = some conn := by
  rw [connection?, Table.lookup_eq_some_iff_mem (h.nodup_ids_room name), h.mem_room]
  exact Iff.rfl

theorem mem_connections {r : Registry Conn} {conn : Conn} :
    conn ∈ r.connections ↔ ∃ name id, r.Holds name id conn := by
  simp only [connections, Room.connections, List.mem_flatMap, List.mem_map, Holds]
  constructor
  · rintro ⟨⟨name, members⟩, hs, ⟨id, c⟩, hm, rfl⟩
    exact ⟨name, id, members, hs, hm⟩
  · rintro ⟨name, id, members, hs, hm⟩
    exact ⟨(name, members), hs, (id, conn), hm, rfl⟩

theorem Keyed.mem_room_connections {r : Registry Conn} (h : r.Keyed) {name : String}
    {conn : Conn} :
    conn ∈ (r.room name).connections ↔ ∃ id, r.Holds name id conn := by
  simp only [Room.connections, List.mem_map, h.mem_room, Holds]
  constructor
  · rintro ⟨⟨id, c⟩, hm, rfl⟩
    exact ⟨id, hm⟩
  · rintro ⟨id, hm⟩
    exact ⟨(id, conn), hm, rfl⟩

/-! ## No connection is listed twice -/

theorem WellFormed.eq_of_holds {r : Registry Conn} (h : r.WellFormed) {conn : Conn}
    {name id name' id' : String} (h₁ : r.Holds name id conn)
    (h₂ : r.Holds name' id' conn) :
    name = name' ∧ id = id' :=
  h.once (h.holds_iff.1 h₁) (h.holds_iff.1 h₂)

theorem WellFormed.nodup_members {r : Registry Conn} (h : r.WellFormed)
    {s : String × Room Conn} (hs : s ∈ r.rooms) : s.2.connections.Nodup := by
  refine List.Nodup.map_on ?_ (h.ids s hs).of_map
  rintro ⟨i, c⟩ hi ⟨j, d⟩ hj rfl
  have hij := (h.eq_of_holds ⟨s.2, hs, hi⟩ ⟨s.2, hs, hj⟩).2
  rw [hij]

theorem WellFormed.nodup_room_connections {r : Registry Conn} (h : r.WellFormed)
    (name : String) :
    (r.room name).connections.Nodup := by
  unfold room
  cases hl : r.rooms.lookup name with
  | none => exact List.nodup_nil
  | some members => exact h.nodup_members ((Table.lookup_eq_some_iff_mem h.names).1 hl)

theorem WellFormed.nodup_connections {r : Registry Conn} (h : r.WellFormed) :
    r.connections.Nodup := by
  refine List.nodup_flatMap.2 ⟨fun s hs => h.nodup_members hs, ?_⟩
  refine List.Pairwise.imp_of_mem ?_ (List.pairwise_map.1 h.names)
  intro s t hs ht hne conn hcs hct
  obtain ⟨⟨i, c⟩, hi, rfl⟩ := List.mem_map.1 hcs
  obtain ⟨⟨j, d⟩, hj, hd⟩ := List.mem_map.1 hct
  cases hd
  exact hne (h.eq_of_holds ⟨s.2, hs, hi⟩ ⟨t.2, ht, hj⟩).1

/-! ## Changing the members of every room -/

section Revise

variable {r : Registry Conn} {change : String → Room Conn → Room Conn}

theorem mem_rooms_revise {s : String × Room Conn} :
    s ∈ (r.revise change).rooms ↔
      (∃ members, (s.1, members) ∈ r.rooms ∧ s.2 = change s.1 members) ∧ s.2 ≠ [] := by
  obtain ⟨name, members⟩ := s
  simp only [revise, List.mem_filter, List.mem_map, Bool.not_eq_true',
    List.isEmpty_eq_false_iff]
  refine and_congr_left fun _ => ?_
  constructor
  · rintro ⟨⟨n, old⟩, hs, he⟩
    cases he
    exact ⟨old, hs, rfl⟩
  · rintro ⟨old, hs, he⟩
    exact ⟨(name, old), hs, by rw [he]⟩

theorem Keyed.revise (h : r.Keyed)
    (hc : ∀ name members, (Table.names members).Nodup →
      (Table.names (change name members)).Nodup) :
    (r.revise change).Keyed where
  names := Table.nodup_names_filter _ (by rw [Table.names_map]; exact h.names)
  ids := by
    intro s hs
    obtain ⟨⟨members, hm, he⟩, -⟩ := mem_rooms_revise.1 hs
    rw [he]
    exact hc _ _ (h.ids _ hm)

/-- A room that is dropped and a room that is left by all look the same. -/
theorem Keyed.room_revise (h : r.Keyed) (hc : ∀ name, change name [] = [])
    (name : String) :
    (r.revise change).room name = change name (r.room name) := by
  have hn : (Table.names (r.rooms.map fun s => (s.1, change s.1 s.2))).Nodup := by
    rw [Table.names_map]
    exact h.names
  unfold room Registry.revise
  rw [Table.lookup_filter (fun members : Room Conn => !members.isEmpty) hn,
    Table.lookup_map]
  cases r.rooms.lookup name with
  | none => exact (hc name).symm
  | some members =>
      rw [Option.map_some, Option.getD_some]
      cases hm : change name members <;> rfl

end Revise

section Change

variable [DecidableEq Conn] {r : Registry Conn}

theorem lookup_without {members : Room Conn} (h : (Table.names members).Nodup)
    (conn : Conn) (id : String) :
    (members.without conn).lookup id = (members.lookup id).filter (· ≠ conn) :=
  Table.lookup_filter (fun c => decide (c ≠ conn)) h id

theorem nodup_names_without {members : Room Conn} (h : (Table.names members).Nodup)
    (conn : Conn) :
    (Table.names (members.without conn)).Nodup :=
  Table.nodup_names_filter _ h

theorem Keyed.without (h : r.Keyed) (conn : Conn) :
    (r.revise fun _ members => members.without conn).Keyed :=
  h.revise fun _ _ hm => nodup_names_without hm conn

/-! ## Registering -/

theorem Keyed.register (h : r.Keyed) (name id : String) (conn : Conn) :
    (r.register name id conn).Keyed where
  names := Table.nodup_names_put _ _ (h.without conn).names
  ids := by
    intro s hs
    rcases Table.mem_of_mem_put hs with rfl | hs
    · exact Table.nodup_names_put _ _ ((h.without conn).nodup_ids_room name)
    · exact (h.without conn).ids s hs

theorem Keyed.room_register (h : r.Keyed) (name id : String) (conn : Conn)
    (other : String) :
    (r.register name id conn).room other =
      if other = name then Table.put id conn ((r.room other).without conn)
      else (r.room other).without conn := by
  have hr : (r.revise fun _ members => members.without conn).room other =
      (r.room other).without conn :=
    h.room_revise (fun _ => rfl) other
  rw [← hr]
  simp only [room, Registry.register, Table.lookup_put]
  split
  · rename_i he
    rw [he, Option.getD_some]
  · rfl

/-- Who is where after a registration: the new connection at its key, and everyone else
as before except who was there. -/
theorem Keyed.connection?_register (h : r.Keyed) (name id : String) (conn : Conn)
    (name' id' : String) :
    (r.register name id conn).connection? name' id' =
      if name' = name ∧ id' = id then some conn
      else (r.connection? name' id').filter (· ≠ conn) := by
  have hw := lookup_without (h.nodup_ids_room name') conn id'
  simp only [connection?, h.room_register]
  by_cases hn : name' = name
  · rw [if_pos hn, Table.lookup_put, hw]
    simp [hn]
  · rw [if_neg hn, hw]
    simp [hn]

theorem Keyed.connection?_register_eq_some (h : r.Keyed) {name id : String} {conn : Conn}
    {name' id' : String} {other : Conn} :
    (r.register name id conn).connection? name' id' = some other ↔
      (name' = name ∧ id' = id) ∧ other = conn ∨
      ¬ (name' = name ∧ id' = id) ∧ other ≠ conn ∧
        r.connection? name' id' = some other := by
  rw [h.connection?_register]
  by_cases hk : name' = name ∧ id' = id
  · simp [hk, eq_comm]
  · rw [if_neg hk, Option.filter_eq_some_iff, decide_eq_true_eq]
    simp [hk, and_comm]

theorem WellFormed.register (h : r.WellFormed) (name id : String) (conn : Conn) :
    (r.register name id conn).WellFormed where
  toKeyed := h.toKeyed.register name id conn
  occupied := by
    intro s hs
    rcases Table.mem_of_mem_put hs with rfl | hs
    · exact Table.put_ne_nil _ _ _
    · exact (mem_rooms_revise.1 hs).2
  once := by
    intro c n i n' i' h₁ h₂
    -- the new connection is only at its key; any other one is where it was
    rcases h.connection?_register_eq_some.1 h₁ with ⟨⟨rfl, rfl⟩, rfl⟩ | ⟨-, hne, h₁⟩
    · rcases h.connection?_register_eq_some.1 h₂ with ⟨⟨rfl, rfl⟩, -⟩ | ⟨-, hne, -⟩
      · exact ⟨rfl, rfl⟩
      · exact absurd rfl hne
    · rcases h.connection?_register_eq_some.1 h₂ with ⟨-, he⟩ | ⟨-, -, h₂⟩
      · exact absurd he hne
      · exact h.once h₁ h₂

/-! ## Unregistering -/

theorem Keyed.unregister (h : r.Keyed) (name : String) (conn : Conn) :
    (r.unregister name conn).Keyed := by
  refine h.revise fun n members hm => ?_
  split
  · exact nodup_names_without hm conn
  · exact hm

/-- Who is where after a connection has left a room: everyone as before except it. -/
theorem Keyed.connection?_unregister (h : r.Keyed) (name : String) (conn : Conn)
    (name' id' : String) :
    (r.unregister name conn).connection? name' id' =
      if name' = name then (r.connection? name' id').filter (· ≠ conn)
      else r.connection? name' id' := by
  have hr : (r.unregister name conn).room name' =
      if name' = name then (r.room name').without conn else r.room name' := by
    refine h.room_revise (fun n => ?_) name'
    split <;> rfl
  rw [connection?, hr]
  split
  · exact lookup_without (h.nodup_ids_room name') conn id'
  · rfl

theorem Keyed.connection?_unregister_eq_some (h : r.Keyed) {name : String} {conn : Conn}
    {name' id' : String} {other : Conn} :
    (r.unregister name conn).connection? name' id' = some other ↔
      ¬ (other = conn ∧ name' = name) ∧ r.connection? name' id' = some other := by
  rw [h.connection?_unregister]
  by_cases hn : name' = name
  · rw [if_pos hn, Option.filter_eq_some_iff, decide_eq_true_eq]
    simp [hn, and_comm]
  · simp [hn]

theorem WellFormed.unregister (h : r.WellFormed) (name : String) (conn : Conn) :
    (r.unregister name conn).WellFormed where
  toKeyed := h.toKeyed.unregister name conn
  occupied := fun _ hs => (mem_rooms_revise.1 hs).2
  once := fun h₁ h₂ => h.once (h.connection?_unregister_eq_some.1 h₁).2
    (h.connection?_unregister_eq_some.1 h₂).2

/-- A connection that is not in a room leaves nothing behind there. -/
theorem WellFormed.unregister_eq_self (h : r.WellFormed) {name : String} {conn : Conn}
    (hn : ∀ id, ¬ r.Holds name id conn) : r.unregister name conn = r := by
  have hm : ∀ s ∈ r.rooms, (s.1, if s.1 = name then s.2.without conn else s.2) = s := by
    rintro ⟨n, members⟩ hs
    split
    · rename_i he
      cases he
      have : members.without conn = members := by
        refine List.filter_eq_self.2 fun m hm => ?_
        have : m.2 ≠ conn := fun hc => hn m.1 ⟨members, hs, hc ▸ hm⟩
        simpa using this
      rw [this]
    · rfl
  have ho : ∀ s ∈ r.rooms, (!s.2.isEmpty) = true := by
    intro s hs
    simpa using h.occupied s hs
  unfold Registry.unregister revise
  rw [List.map_congr_left hm, List.map_id', List.filter_eq_self.2 ho]

end Change

end NotebookService.Registry
