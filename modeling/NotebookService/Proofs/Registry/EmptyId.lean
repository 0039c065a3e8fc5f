/-
# `NotebookService.Proofs.Registry.EmptyId` — an id by itself and in an object

The target of a result may be a client's id, or an object that has the id under
`client_id`.  The two say the same, unless the id is the empty text: by itself that is
an id like any other, and in an object it counts as absent.  An empty id is no idle
case, since a client may bring one when it connects.

`bare_and_object_agree_iff` says that nothing else tells the two apart.  Whatever they
name, a number or a string, they are delivered alike in every registry, and with the
empty string in every registry in which no one has the empty id in the default room.
-/
import NotebookService.Proofs.Registry.Routing

namespace NotebookService.Registry

open NotebookService.Json (Value)

/-- A value that names a client by itself, and the id that it names. -/
inductive NamesClient : Value → String → Prop
  | string (s : String) : NamesClient (.string s) s
  | number (n : Json.Number) : NamesClient (.number n) n.text

/-- An object that has nothing but a client's id. -/
def idObject (v : Value) : Value := .object [("client_id", v)]

variable {v : Value} {id : String}

theorem NamesClient.isId (h : NamesClient v id) (hv : v ≠ .string "") : IsId v id := by
  cases h with
  | string s =>
      refine .string ?_
      rintro rfl
      exact hv rfl
  | number n => exact .number n

namespace Outbound

theorem ofValue_of_namesClient (data : Value) (h : NamesClient v id) :
    ofValue (.array [data, v]) = .addressed data (.client id) := by
  refine ofValue_of_target ?_
  cases h with
  | string s => rfl
  | number n => rfl

theorem ofValue_idObject (data v : Value) :
    ofValue (.array [data, idObject v]) =
      match Target.id? v with
      | some id => .addressed data (.client id)
      | none => .discarded data := by
  rw [idObject, @ofValue_of_ids data _ none (Target.id? v) rfl rfl]
  cases Target.id? v with
  | none => rfl
  | some id => rfl

theorem ofValue_idObject_of_isId (data : Value) (h : IsId v id) :
    ofValue (.array [data, idObject v]) = .addressed data (.client id) := by
  rw [ofValue_idObject, Target.id?_eq_some_iff.2 h]

theorem ofValue_idObject_empty (data : Value) :
    ofValue (.array [data, idObject (.string "")]) = .discarded data := by
  rw [ofValue_idObject]
  rfl

end Outbound

variable {Conn : Type} [DecidableEq Conn]

/-- After every run, a pair with an id as its target writes the first item to the client
that has this id in the default room, and a pair with the object of that id does so too,
unless the id is the empty string: then it is for no one.  So the two are delivered
alike, with the same calls and the same result, if and only if the id is not the empty
string or no client in the default room has the empty id. -/
theorem bare_and_object_agree_iff (answers : Answers Conn) (steps : List (Step Conn))
    (data : Value) (hv : NamesClient v id) :
    let r := after steps
    let bare := route answers r (.ofValue (.array [data, v]))
    let object := route answers r (.ofValue (.array [data, idObject v]))
    bare.Reaches data.text (r.Holds defaultRoom id) ∧
    (object.Reaches data.text fun conn => v ≠ .string "" ∧ r.Holds defaultRoom id conn) ∧
    (bare = object ↔ v = .string "" → ∀ conn, ¬ r.Holds defaultRoom id conn) := by
  intro r bare object
  have hr : r.WellFormed := wellFormed_after steps
  have hb : bare = route answers r (.addressed data (.client id)) :=
    congrArg (route answers r) (Outbound.ofValue_of_namesClient data hv)
  have hreach : bare.Reaches data.text (r.Holds defaultRoom id) :=
    hb ▸ hr.route_addressed_reaches answers data (.client id)
  refine ⟨hreach, ?_⟩
  by_cases he : v = .string ""
  · subst he
    have ho : object = route answers r (.discarded data) :=
      congrArg (route answers r) (Outbound.ofValue_idObject_empty data)
    have hnone : object.Reaches data.text fun _ => False :=
      ho ▸ route_discarded_reaches answers data
    refine ⟨hnone.congr fun conn => by simp, ?_⟩
    constructor
    · intro hbo _ conn hconn
      have hcalled := (hreach conn).1 hconn
      rw [hbo, (hnone conn).2 not_false] at hcalled
      cases hcalled
    · intro hn
      rw [hb, ho]
      exact hr.send_no_client answers data.text (hn rfl)
  · have ho : object = bare := by
      rw [hb]
      exact congrArg (route answers r)
        (Outbound.ofValue_idObject_of_isId data (hv.isId he))
    refine ⟨?_, iff_of_true ho.symm fun h => absurd h he⟩
    rw [ho]
    exact hreach.congr fun conn => by simp [he]

/-- A number names the client whose id is its text, by itself and in an object. -/
theorem bare_and_object_agree_iff_number :
    let steps : List (Step Unit) :=
      [⟨⟨fun _ _ => none, "made up"⟩, .connect () none (some "7")⟩]
    let routed (v : Value) :=
      route (fun _ _ => none) (after steps) (.ofValue (.array [.string "hi", v]))
    NamesClient (.number (.int 7)) "7" ∧
      (routed (.number (.int 7))).calls = [((), .send "\"hi\"")] ∧
      routed (.number (.int 7)) = routed (idObject (.number (.int 7))) := by
  intro steps routed
  have hv : NamesClient (.number (.int 7)) "7" := .number (.int 7)
  refine ⟨hv, by decide +kernel, ?_⟩
  exact (bare_and_object_agree_iff (fun _ _ => none) steps (.string "hi") hv).2.2.2 nofun

/-- The client with the empty id gets what is addressed to that id by itself, and
nothing that is addressed to it in an object. -/
theorem empty_id_missed_in_object :
    ¬ ∀ (answers : Answers Unit) (steps : List (Step Unit)) (data v : Value)
      (id : String), NamesClient v id →
      (route answers (after steps) (.ofValue (.array [data, v]))).calls =
        (route answers (after steps) (.ofValue (.array [data, idObject v]))).calls := by
  intro hall
  have hcalls := hall (fun _ _ => none)
    [⟨⟨fun _ _ => none, "made up"⟩, .connect () none (some "")⟩] (.string "hi")
    (.string "") "" (.string "")
  exact absurd hcalls (by decide +kernel)

end NotebookService.Registry
