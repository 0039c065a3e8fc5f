/-
# `NotebookService.Registry.Outbound` — where a handler's result goes

A handler returns plain data, which everyone gets, or a pair of data and target.  The
target names a client, or it is an object that names a room, a client, or both.  A pair
whose target is an object without a usable id goes to no one; any other pair whose
second item is no target is plain data.
-/
import NotebookService.Json.Printer

namespace NotebookService.Registry

open NotebookService.Json (Value)

inductive Target where
  /-- In the default room. -/
  | client (id : String)
  /-- Everyone in a room. -/
  | room (name : String)
  | clientIn (room id : String)
  deriving DecidableEq, Repr

namespace Target

/-- An id inside an object: a number, or a string that is not empty. -/
def id? : Value → Option String
  | .string s => if s.isEmpty then none else some s
  | .number n => some n.text
  | _ => none

/-- The target that an object names. -/
def ofIds? : Option String → Option String → Option Target
  | some name, some id => some (.clientIn name id)
  | some name, none => some (.room name)
  | none, some id => some (.client id)
  | none, none => none

/-- The target that a value names.  Outside an object the empty string is an id too. -/
def ofValue? (v : Value) : Option Target :=
  match v with
  | .string s => some (.client s)
  | .number n => some (.client n.text)
  | .object _ =>
    ofIds? ((v.member? "room_id").bind id?) ((v.member? "client_id").bind id?)
  | _ => none

end Target

/-- A handler's result, ready to be delivered. -/
inductive Outbound where
  | broadcast (data : Value)
  | addressed (data : Value) (target : Target)
  /-- Addressed to no one. -/
  | discarded (data : Value)
  deriving Repr

namespace Outbound

def ofValue (v : Value) : Outbound :=
  match v with
  | .array [data, target] =>
    match Target.ofValue? target with
    | some t => .addressed data t
    | none => if target.isObject then .discarded data else .broadcast v
  | _ => .broadcast v

def data : Outbound → Value
  | .broadcast data | .addressed data _ | .discarded data => data

/-- The text that goes out. -/
def payload (o : Outbound) : String := o.data.text

end Outbound

end NotebookService.Registry
