/-
# `NotebookService.Registry.Basic` — who is in which room

The registry keeps the live connections by room and, within a room, by client id.  A
connection is registered under one room and id at a time: registering it again moves it,
and registering another connection under the same id replaces the first.  A room is
dropped with its last member.

An id is a text, whether a client brings it or it is made up for one that brings none.
So a client can come back with the id that was made up for it.
-/
import NotebookService.Table

namespace NotebookService.Registry

/-- The room of those that name none. -/
def defaultRoom : String := "default"

/-- The members of a room, in the order in which their ids came in. -/
abbrev Room (Conn : Type) := List (String × Conn)

namespace Room

variable {Conn : Type}

def has [DecidableEq Conn] (conn : Conn) (room : Room Conn) : Bool :=
  room.any (·.2 = conn)

def without [DecidableEq Conn] (conn : Conn) (room : Room Conn) : Room Conn :=
  room.filter (·.2 ≠ conn)

@[simp] theorem mem_without [DecidableEq Conn] (conn : Conn) (room : Room Conn)
    (m : String × Conn) : m ∈ room.without conn ↔ m ∈ room ∧ m.2 ≠ conn := by
  simp [without]

def connections (room : Room Conn) : List Conn := room.map (·.2)

end Room

end Registry

/-- The live connections. -/
structure Registry (Conn : Type) where
  rooms : List (String × Registry.Room Conn)
  deriving Repr

namespace Registry

variable {Conn : Type}

def empty : Registry Conn := ⟨[]⟩

/-! ## Looking -/

/-- The members of a room; a room that is not there has none. -/
def room (r : Registry Conn) (name : String) : Room Conn := (r.rooms.lookup name).getD []

/-- The connection under a room and an id. -/
def connection? (r : Registry Conn) (name id : String) : Option Conn :=
  (r.room name).lookup id

/-- All connections, room by room. -/
def connections (r : Registry Conn) : List Conn := r.rooms.flatMap (·.2.connections)

def roomCount (r : Registry Conn) : Nat := r.rooms.length

def roomSize (r : Registry Conn) (name : String) : Nat := (r.room name).length

def isConnected [DecidableEq Conn] (r : Registry Conn) (conn : Conn) : Bool :=
  r.rooms.any (·.2.has conn)

/-! ## Changing -/

/-- The registry with the members of every room changed, and without the rooms
that are left by all. -/
def revise (change : String → Room Conn → Room Conn) (r : Registry Conn) :
    Registry Conn :=
  ⟨(r.rooms.map fun s => (s.1, change s.1 s.2)).filter fun s => !s.2.isEmpty⟩

/-- The registry with a connection under a room and an id, and nowhere else. -/
def register [DecidableEq Conn] (r : Registry Conn) (name id : String) (conn : Conn) :
    Registry Conn :=
  let r := r.revise fun _ members => members.without conn
  ⟨Table.put name (Table.put id conn (r.room name)) r.rooms⟩

/-- The registry without a connection in a room. -/
def unregister [DecidableEq Conn] (r : Registry Conn) (name : String) (conn : Conn) :
    Registry Conn :=
  r.revise fun n members => if n = name then members.without conn else members

end Registry

end NotebookService
