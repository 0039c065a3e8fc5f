/-
# `NotebookService.Proofs.Registry.Routing` — a result goes to those it is addressed to

A handler's result is a JSON value, and all that is said about where it goes stands in
the value: whether it is a pair, and what its second item is.
`routing_reaches_addressed` goes through the values by that and says who is called with
which text.  A pair whose second item is a string or a number has an address, an object
has one if there is an id in it, and everything else is for everyone.

Inside an object the empty string is no id, so an object can have no address at all, and
then no one is called.  As the second item itself it is an id like every other.

The value is decoded first, and from then on a target counts.  So there is one lemma for
targets, and in the end the targets are read off the values.
-/
import NotebookService.Proofs.Registry.Delivery

namespace NotebookService.Registry

open NotebookService.Json (Value)

variable {Conn : Type}

/-! ## Ids in objects -/

/-- A value is an id inside an object. -/
inductive IsId : Value → String → Prop
  | string {s : String} : s ≠ "" → IsId (.string s) s
  | number (n : Json.Number) : IsId (.number n) n.text

/-- An object has an id under a name. -/
def HasId (members : List (String × Value)) (name id : String) : Prop :=
  ∃ v, members.lookup name = some v ∧ IsId v id

namespace Target

theorem id?_eq_some_iff {v : Value} {id : String} : id? v = some id ↔ IsId v id := by
  constructor
  · intro h
    cases v with
    | string s =>
        rw [id?] at h
        split at h
        · cases h
        · rename_i hs
          cases h
          exact .string (by simpa using hs)
    | number n =>
        cases h
        exact .number n
    | null => cases h
    | bool b => cases h
    | array items => cases h
    | object members => cases h
  · rintro (hs | n)
    · exact if_neg (by simpa using hs)
    · rfl

theorem memberId_eq_some_iff {members : List (String × Value)} {name id : String} :
    ((Value.object members).member? name).bind id? = some id ↔ HasId members name id := by
  rw [Option.bind_eq_some_iff]
  exact exists_congr fun v => and_congr_right fun _ => id?_eq_some_iff

theorem memberId_eq_none_iff {members : List (String × Value)} {name : String} :
    ((Value.object members).member? name).bind id? = none ↔
      ∀ id, ¬ HasId members name id := by
  rw [Option.eq_none_iff_forall_not_mem]
  exact forall_congr' fun id => not_congr memberId_eq_some_iff

/-! ## Targets -/

/-- The connections that a target stands for. -/
def Addresses (r : Registry Conn) : Target → Conn → Prop
  | .client id => r.Holds defaultRoom id
  | .room name => fun conn => ∃ id, r.Holds name id conn
  | .clientIn name id => r.Holds name id

end Target

section Routes

variable [DecidableEq Conn] {r : Registry Conn} (answers : Answers Conn)

theorem WellFormed.route_addressed_reaches (h : r.WellFormed) (data : Value)
    (target : Target) :
    (route answers r (.addressed data target)).Reaches data.text
      (target.Addresses r) := by
  cases target with
  | client id => exact h.send_client_reaches answers data.text none id
  | room name => exact h.writeAll_room_reaches answers data.text (.refl _)
  | clientIn name id => exact h.send_client_reaches answers data.text (some name) id

theorem WellFormed.route_broadcast_reaches (h : r.WellFormed) (data : Value) :
    (route answers r (.broadcast data)).Reaches data.text fun conn => ∃ name id,
      r.Holds name id conn :=
  h.writeAll_reaches_all answers data.text (.refl _)

theorem route_discarded_reaches (data : Value) :
    (route answers r (.discarded data)).Reaches data.text fun _ => False :=
  fun _ => ⟨False.elim, fun _ => rfl⟩

end Routes

/-! ## Values -/

namespace Outbound

theorem ofValue_of_not_pair {v : Value} (h : ∀ data target, v ≠ .array [data, target]) :
    ofValue v = .broadcast v := by
  unfold ofValue
  split
  · exact absurd rfl (h _ _)
  · rfl

theorem ofValue_of_target {data v : Value} {target : Target}
    (h : Target.ofValue? v = some target) :
    ofValue (.array [data, v]) = .addressed data target := by
  rw [ofValue, h]

theorem ofValue_of_plain {data v : Value} (h : Target.ofValue? v = none)
    (ho : v.isObject = false) :
    ofValue (.array [data, v]) = .broadcast (.array [data, v]) := by
  rw [ofValue, h, ho]
  rfl

theorem ofValue_of_ids (data : Value) {members : List (String × Value)}
    {name? id? : Option String}
    (hn : ((Value.object members).member? "room_id").bind Target.id? = name?)
    (hi : ((Value.object members).member? "client_id").bind Target.id? = id?) :
    ofValue (.array [data, .object members]) =
      match Target.ofIds? name? id? with
      | some target => .addressed data target
      | none => .discarded data := by
  rw [ofValue, Target.ofValue?, hn, hi]
  rfl

end Outbound

/-- After every run, a result is written once to each connection that it is addressed to
and to no other one, however the connections answer.  What is no pair, or a pair with
null, a truth value or an array in the second place, goes to everyone as it is.
Otherwise the first item goes out: to the client in the default room that a string or a
number names, or to where the ids of an object say. -/
theorem routing_reaches_addressed [DecidableEq Conn] (answers : Answers Conn)
    (steps : List (Step Conn)) :
    let r := after steps
    let routed (v : Value) := route answers r (.ofValue v)
    (∀ v, (∀ data target, v ≠ .array [data, target]) →
      (routed v).Reaches v.text fun conn => ∃ name id, r.Holds name id conn) ∧
    (∀ data v, v = .null ∨ (∃ b, v = .bool b) ∨ (∃ items, v = .array items) →
      (routed (.array [data, v])).Reaches (Value.array [data, v]).text
        fun conn => ∃ name id, r.Holds name id conn) ∧
    (∀ data id, (routed (.array [data, .string id])).Reaches data.text
      (r.Holds defaultRoom id)) ∧
    (∀ data n, (routed (.array [data, .number n])).Reaches data.text
      (r.Holds defaultRoom n.text)) ∧
    ∀ data members,
      (∀ name id, HasId members "room_id" name → HasId members "client_id" id →
        (routed (.array [data, .object members])).Reaches data.text (r.Holds name id)) ∧
      (∀ name, HasId members "room_id" name → (∀ id, ¬ HasId members "client_id" id) →
        (routed (.array [data, .object members])).Reaches data.text fun conn => ∃ id,
          r.Holds name id conn) ∧
      (∀ id, (∀ name, ¬ HasId members "room_id" name) → HasId members "client_id" id →
        (routed (.array [data, .object members])).Reaches data.text
        (r.Holds defaultRoom id)) ∧
      ((∀ name, ¬ HasId members "room_id" name) → (∀ id, ¬ HasId members "client_id" id) →
        (routed (.array [data, .object members])).Reaches data.text fun _ => False) := by
  intro r routed
  have hr : r.WellFormed := wellFormed_after steps
  have haddressed {v data : Value} (target : Target) (hv : Outbound.ofValue v =
    .addressed data target) :
      (routed v).Reaches data.text (target.Addresses r) := by
    show (route answers r (.ofValue v)).Reaches _ _
    rw [hv]
    exact hr.route_addressed_reaches answers data target
  have hbroadcast {v : Value} (hv : Outbound.ofValue v = .broadcast v) :
      (routed v).Reaches v.text fun conn => ∃ name id, r.Holds name id conn := by
    show (route answers r (.ofValue v)).Reaches _ _
    rw [hv]
    exact hr.route_broadcast_reaches answers v
  refine ⟨fun v hv => hbroadcast (Outbound.ofValue_of_not_pair hv), ?_, ?_, ?_, ?_⟩
  · rintro data v (rfl | ⟨b, rfl⟩ | ⟨items, rfl⟩) <;>
      exact hbroadcast (Outbound.ofValue_of_plain rfl rfl)
  · intro data id
    exact haddressed (.client id) (Outbound.ofValue_of_target rfl)
  · intro data n
    exact haddressed (.client n.text) (Outbound.ofValue_of_target rfl)
  intro data members
  refine ⟨?_, ?_, ?_, ?_⟩
  · intro name id hn hi
    exact haddressed (.clientIn name id) (Outbound.ofValue_of_ids data
      (Target.memberId_eq_some_iff.2 hn) (Target.memberId_eq_some_iff.2 hi))
  · intro name hn hi
    exact haddressed (.room name) (Outbound.ofValue_of_ids data
      (Target.memberId_eq_some_iff.2 hn) (Target.memberId_eq_none_iff.2 hi))
  · intro id hn hi
    exact haddressed (.client id) (Outbound.ofValue_of_ids data
      (Target.memberId_eq_none_iff.2 hn) (Target.memberId_eq_some_iff.2 hi))
  · intro hn hi
    show (route answers r (.ofValue _)).Reaches _ _
    rw [Outbound.ofValue_of_ids data (Target.memberId_eq_none_iff.2 hn)
      (Target.memberId_eq_none_iff.2 hi)]
    exact route_discarded_reaches answers data

end NotebookService.Registry
