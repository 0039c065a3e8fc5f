/-
# `NotebookService.Registry.Delivery` — serving the connections

Everything that is done to the registry or through it.  How a connection answers a call
is not the registry's to decide: every operation is given the answers, and reports the
calls that it made, in order, beside its result.  Nor is the id that is made up for a
client: it is given too.

A connection is registered only after it has accepted, and one that refuses leaves
everything as it was.  Writing to a room or to everyone goes on past a connection that
fails and counts those that did not; a failure of the one connection that a message is
addressed to is reported.
-/
import NotebookService.Registry.Basic
import NotebookService.Registry.Fault
import NotebookService.Registry.Outbound

namespace NotebookService.Registry

/-- What is asked of a connection. -/
inductive Call where
  | accept
  | send (text : String)
  | close (code : CloseCode) (reason : String)
  deriving DecidableEq, Repr

/-- How connections answer: a call succeeds, or it has a fault. -/
abbrev Answers (Conn : Type) := Conn → Call → Option Fault

/-- What an operation finds outside the registry. -/
structure Surroundings (Conn : Type) where
  answers : Answers Conn
  /-- The id for a client that brings none. -/
  madeUp : String

/-- A result and the calls made on the way to it. -/
structure Called (Conn α : Type) where
  value : α
  calls : List (Conn × Call)
  deriving Repr

variable {Conn : Type}

/-! ## Writing -/

/-- A text written to one connection after the other, and how many of them took it.  One
that fails is passed over. -/
def writeAll (answers : Answers Conn) (text : String) : List Conn → Called Conn Nat
  | [] => ⟨0, []⟩
  | c :: conns =>
    let rest := writeAll answers text conns
    match answers c (.send text) with
    | none => ⟨rest.value + 1, (c, .send text) :: rest.calls⟩
    | some _ => ⟨rest.value, (c, .send text) :: rest.calls⟩

/-- A text written to one connection. -/
def writeOne (answers : Answers Conn) (text : String) (conn : Conn) :
    Called Conn (Except Fault Nat) :=
  ⟨match answers conn (.send text) with
    | none => .ok 1
    | some fault => .error fault,
   [(conn, .send text)]⟩

/-- A text for a client of a room, or for the room when there is no client.  The result
is the number of connections that took it; where no one is there, that is none. -/
def send (answers : Answers Conn) (r : Registry Conn) (text : String)
    (room client : Option String) :
    Called Conn (Except Fault Nat) :=
  let name := room.getD defaultRoom
  match client with
  | some id =>
    match r.connection? name id with
    | some conn => writeOne answers text conn
    | none => ⟨.ok 0, []⟩
  | none =>
    let sent := writeAll answers text (r.room name).connections
    ⟨.ok sent.value, sent.calls⟩

/-- A text for every client. -/
def broadcast (answers : Answers Conn) (r : Registry Conn) (text : String) :
    Called Conn Nat :=
  writeAll answers text r.connections

/-- A handler's result, delivered. -/
def route (answers : Answers Conn) (r : Registry Conn) (message : Outbound) :
    Called Conn (Except Fault Nat) :=
  match message with
  | .broadcast _ =>
    let sent := broadcast answers r message.payload
    ⟨.ok sent.value, sent.calls⟩
  | .discarded _ => ⟨.ok 0, []⟩
  | .addressed _ (.client id) => send answers r message.payload none (some id)
  | .addressed _ (.room name) => send answers r message.payload (some name) none
  | .addressed _ (.clientIn name id) =>
    send answers r message.payload (some name) (some id)

/-- The calls that tell a client of a fault and close its connection.  Their answers do
not matter: the connection is usually gone already. -/
def reportFault (conn : Conn) (fault : Fault) : List (Conn × Call) :=
  [(conn, .send fault.message), (conn, .close fault.closeCode fault.message)]

/-! ## Coming and going -/

variable [DecidableEq Conn]

/-- A connection is accepted and registered; the result is its client id. -/
def connect (s : Surroundings Conn) (r : Registry Conn) (conn : Conn)
    (room client : Option String) :
    Called Conn (Except Fault String) × Registry Conn :=
  match s.answers conn .accept with
  | some fault => (⟨.error fault, [(conn, .accept)]⟩, r)
  | none =>
    let id := client.getD s.madeUp
    (⟨.ok id, [(conn, .accept)]⟩, r.register (room.getD defaultRoom) id conn)

/-- A connection leaves a room; the result says whether it was there. -/
def disconnect (r : Registry Conn) (conn : Conn) (room : Option String) :
    Bool × Registry Conn :=
  let name := room.getD defaultRoom
  ((r.room name).has conn, r.unregister name conn)

/-! ## All operations -/

/-- An operation on the registry. -/
inductive Action (Conn : Type) where
  | connect (conn : Conn) (room client : Option String)
  | disconnect (conn : Conn) (room : Option String)
  | send (text : String) (room client : Option String)
  | broadcast (text : String)
  | route (message : Outbound)
  | reportFault (conn : Conn) (fault : Fault)

/-- What comes back from an operation. -/
inductive Reply where
  | connected (id : String)
  | disconnected (wasThere : Bool)
  | delivered (count : Nat)
  | failed (fault : Fault)
  | reported
  deriving DecidableEq, Repr

namespace Reply

def ofConnect : Except Fault String → Reply
  | .ok id => .connected id
  | .error fault => .failed fault

def ofSend : Except Fault Nat → Reply
  | .ok count => .delivered count
  | .error fault => .failed fault

end Reply

/-- An operation's reply and calls, and the registry after it. -/
def perform (s : Surroundings Conn) (r : Registry Conn) (a : Action Conn) :
    Called Conn Reply × Registry Conn :=
  match a with
  | .connect conn room client =>
    let (called, r) := connect s r conn room client
    (⟨.ofConnect called.value, called.calls⟩, r)
  | .disconnect conn room =>
    let (wasThere, r) := disconnect r conn room
    (⟨.disconnected wasThere, []⟩, r)
  | .send text room client =>
    let called := send s.answers r text room client
    (⟨.ofSend called.value, called.calls⟩, r)
  | .broadcast text =>
    let called := broadcast s.answers r text
    (⟨.delivered called.value, called.calls⟩, r)
  | .route message =>
    let called := route s.answers r message
    (⟨.ofSend called.value, called.calls⟩, r)
  | .reportFault conn fault => (⟨.reported, reportFault conn fault⟩, r)

end NotebookService.Registry
