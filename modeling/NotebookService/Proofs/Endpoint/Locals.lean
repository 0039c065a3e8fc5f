/-
# `NotebookService.Proofs.Endpoint.Locals` — what a socket handler assigns

The handler of a socket has variables of its own: the frame that came in, the answer,
the item of a loop, the exception.  The names that a request binds are parameters of the
same function, and they may be any names.  Where the two meet, the value of the request
is lost before the cell's function sees it.

For two of its variables the handler looks first: `room_id` and `client_id` are assigned
only if the request does not bind them.  It does not look for the others (`locals`), of
which each mode has some.  `names_undisturbed_iff` says that these are the only ones:
the values of a request reach the function exactly when none of them is called like a
variable in `locals`.  It says the same of the function itself, which cannot be called
where its name stands for something else.

What a statement binds is read off the first words of its text: an assignment, a loop, a
handler of exceptions.
-/
import NotebookService.Proofs.Endpoint.Agreement

namespace NotebookService

namespace Code

/-! ## Names bound by generated code -/

/-- The pieces of a text between its spaces. -/
def words (text : String) : List String := (text.toList.splitOn ' ').map String.ofList

/-- The name that a line or a header binds. -/
def boundBy (text : String) : List String :=
  match words text with
  | name :: "=" :: _ => [name]
  | "for" :: name :: "in" :: _ => [name]
  | "async" :: "for" :: name :: "in" :: _ => [name]
  | ["except", _, "as", name] => [name]
  | _ => []

mutual

/-- The names that a statement binds, at every depth. -/
def Statement.binds : Statement → List String
  | .line text => boundBy text
  | .block header body => boundBy header ++ bindsOf body
  | .function head body => head.name :: (head.paramNames ++ bindsOf body)
  | .model name _ => [name]
  | .blank | .verbatim _ => []

def bindsOf : List Statement → List String
  | [] => []
  | s :: ss => s.binds ++ bindsOf ss

end

theorem bindsOf_append (ss ts : List Statement) :
    bindsOf (ss ++ ts) = bindsOf ss ++ bindsOf ts := by
  induction ss with
  | nil => rfl
  | cons s ss ih => rw [List.cons_append, bindsOf, ih, bindsOf, List.append_assoc]

theorem words_append (a b : String) : words (a ++ " " ++ b) = words a ++ words b := by
  have hs : (a ++ " " ++ b).toList = a.toList ++ ' ' :: b.toList := by
    rw [String.toList_append, String.toList_append, List.append_assoc]
    rfl
  unfold words List.splitOn
  rw [hs, List.splitOnP_append_cons (p := (· == ' ')) a.toList b.toList rfl,
    List.map_append]

theorem boundBy_assignment {start name : String} (h : words start = [name, "="])
    (value : String) :
    boundBy (start ++ " " ++ value) = [name] := by
  have hw : words (start ++ " " ++ value) = name :: "=" :: words value := by
    rw [words_append, h]
    rfl
  unfold boundBy
  split <;> simp_all

theorem boundBy_loop {start name : String}
    (h : words start = ["async", "for", name, "in"]) (items : String) :
    boundBy (start ++ " " ++ items) = [name] := by
  have hw : words (start ++ " " ++ items) =
      "async" :: "for" :: name :: "in" :: words items := by
    rw [words_append, h]
    rfl
  unfold boundBy
  split <;> simp_all

end Code

open NotebookService.Code

/-! ## Socket handlers -/

namespace Socket.Endpoint

variable (e : Endpoint) {n : String}

/-- The variables that the handler assigns whether or not the request
binds their names. -/
def locals (e : Endpoint) : List String :=
  match e.mode with
  | .event => ["event_data", "response", "e"]
  | .stream =>
    ["_stream", "data", "e"] ++
      if e.message.isEmpty then []
      else ["user_input", "new_input"] ++ if e.validates then ["error"] else []

/-- The variables that it assigns only if the request does not bind them. -/
def identityNames : List String := ["room_id", "client_id"]

theorem mem_bindsOf_identity :
    n ∈ bindsOf e.identity ↔ n ∈ identityNames ∧ n ∉ e.names := by
  have hroom : boundBy "room_id = 'default'" = ["room_id"] := by decide
  have hclient : boundBy "client_id = str(uuid.uuid4())" = ["client_id"] := by decide
  rw [identity, bindsOf_append, List.mem_append]
  simp only [e.mem_boundNames, identityNames]
  by_cases hr : "room_id" ∈ e.names <;> by_cases hc : "client_id" ∈ e.names <;>
    simp only [hr, hc, if_true, if_false, bindsOf, Statement.binds, hroom, hclient] <;>
    grind

theorem bindsOf_guarded (body : List Statement) :
    bindsOf (guarded body) = bindsOf body ++ ["e"] := by
  have ht : boundBy "try" = [] := by decide
  -- what stands below the loop does not depend on it
  have hr : bindsOf ((guarded []).drop 1) = ["e"] := by decide
  show boundBy "try" ++ bindsOf body ++ bindsOf ((guarded []).drop 1) = _
  rw [ht, hr, List.nil_append]

theorem binds_connecting : connecting.binds = [] := by decide

theorem bindsOf_eventLoop (s : Signature) :
    bindsOf (e.eventLoop s) = ["event_data", "response"] := by
  have hw : boundBy "while True" = [] := by decide
  have hd : boundBy "event_data = await websocket.receive_text()" = ["event_data"] := by
    decide
  have hr : boundBy ("response = " ++ s.awaiting ++ e.call s (some "event_data")) =
      ["response"] := by
    rw [show "response = " = "response =" ++ " " from rfl, String.append_assoc]
    exact boundBy_assignment (by decide) _
  have hm : bindsOf [.block "if response is not None"
      [.line "await manager.parse_and_send_message(response)"]] = [] := by decide
  rw [eventLoop, bindsOf, Statement.binds, bindsOf, bindsOf, bindsOf, hm, Statement.binds,
    Statement.binds, hw, hd, hr]
  rfl

theorem binds_drain (s : Signature) (first : Option String) :
    (e.drain s first).binds = ["data"] := by
  have hh : boundBy ("async for data in " ++ e.call s first) = ["data"] := by
    rw [show "async for data in " = "async for data in" ++ " " from rfl]
    exact boundBy_loop (by decide) _
  have hy : bindsOf [.line "yield data"] = [] := by decide
  rw [drain, Statement.binds, hh, hy]
  rfl

theorem bindsOf_acceptInput (s : Signature) :
    bindsOf (e.acceptInput s) = "user_input" :: if e.validates
      then ["e", "error"] else [] := by
  cases hv : e.validates with
  | true =>
      have hu : boundBy ("user_input = " ++ messageModel s ++
        ".model_validate_json(new_input).model_dump()") =
          ["user_input"] := by
        rw [show "user_input = " = "user_input =" ++ " " from rfl, String.append_assoc]
        exact boundBy_assignment (by decide) _
      have ht : boundBy "try" = [] := by decide
      have hr : bindsOf [.block "except ValidationError as e"
          [ .line ("error = json.dumps(\x7b'error': 'validation_error', " ++
              "'detail': json.loads(e.json())\x7d)"),
            .line "await manager.send_message(error, room_id, client_id)",
            .line "continue" ]] = ["e", "error"] := by decide
      rw [acceptInput, if_pos hv, bindsOf, hr, Statement.binds, bindsOf,
        Statement.binds, ht, hu]
      rfl
  | false =>
      rw [acceptInput, if_neg (by simp [hv])]
      decide

theorem mem_bindsOf_streamBody (s : Signature) :
    n ∈ bindsOf (e.streamBody s) ↔ n = "data" ∨ e.message.isEmpty = false ∧
      (n ∈ ["user_input", "new_input"] ∨ e.validates = true ∧ n ∈ ["e", "error"]) := by
  have hw : boundBy "while True" = [] := by decide
  cases hm : e.message.isEmpty with
  | true =>
      simp only [streamBody, hm, if_true, bindsOf, Statement.binds, hw, e.binds_drain]
      simp
  | false =>
      have hu : boundBy ("user_input = " ++ if e.validates then "\x7b\x7d" else "''") =
          ["user_input"] := by
        rw [show "user_input = " = "user_input =" ++ " " from rfl]
        exact boundBy_assignment (by decide) _
      have ht : boundBy "try" = [] := by decide
      have hn :
        boundBy
        ("new_input = await asyncio.wait_for(websocket.receive_text(), timeout=" ++
          receiveTimeout ++ ")") = ["new_input"] := by decide
      have hx : (Statement.block "except asyncio.TimeoutError" [.line "pass"]).binds =
          [] := by decide
      rw [streamBody, hm, if_neg Bool.false_ne_true, bindsOf, bindsOf, bindsOf,
        Statement.binds, Statement.binds, bindsOf, bindsOf, bindsOf, bindsOf, hx,
        e.binds_drain, Statement.binds, bindsOf, e.bindsOf_acceptInput,
        Statement.binds, hw, hu, ht, hn]
      cases e.validates <;> simp <;> grind

/-- What the handler binds: its own variables, and room and client where
the request does not. -/
theorem mem_bindsOf_handlerBody (s : Signature) :
    n ∈ bindsOf (e.handlerBody s) ↔ n ∈ e.locals ∨ n ∈ identityNames ∧ n ∉ e.names := by
  rw [handlerBody, bindsOf_append, List.mem_append, e.mem_bindsOf_identity, or_comm]
  refine or_congr_left ?_
  cases hm : e.mode with
  | event =>
      simp [locals, hm, bindsOf, binds_connecting, bindsOf_guarded, e.bindsOf_eventLoop]
  | stream =>
      have hl : boundBy "async for data in _stream()" = ["data"] := by decide
      have hs :
          boundBy "await manager.send_message(json.dumps(data), room_id, client_id)" =
          [] := by
        decide
      simp only [locals, hm, bindsOf, binds_connecting, bindsOf_guarded, streamFunction,
        Statement.binds, FunctionHead.paramNames, callOrder, List.mem_append,
        List.mem_cons, e.mem_bindsOf_streamBody, hl, hs]
      cases e.message.isEmpty <;> cases e.validates <;> simp <;> grind

theorem mem_map_parameters :
    n ∈ e.parameters.map Param.name ↔ n = "websocket" ∨ n ∈ e.names := by
  rw [← e.mem_paramNames]
  exact List.mem_cons

end Socket.Endpoint

/-- A value that a request brings in is not assigned in the handler unless it is
called like one of the variables in `locals`.  The cell's function can be called
by its name unless that is the name of a parameter, of one of these variables, or
of room or client. -/
theorem names_undisturbed_iff (e : Socket.Endpoint) {items : List Statement}
    (h : e.generate.value = some items) :
    ∃ s head body, Signature.ofSource? e.source = some s ∧
      functions items = [(head, body)] ∧
      (∃ before first, before ++ e.call s first ∈ textsOf body) ∧
      ((∀ n ∈ e.names, n ∉ bindsOf body) ↔ ∀ n ∈ e.names, n ∉ e.locals) ∧
      (s.name ∉ head.paramNames ∧ s.name ∉ bindsOf body ↔
        s.name ∉ "websocket" :: Socket.Endpoint.identityNames ++ e.names ++
        e.locals) := by
  obtain ⟨s, hs, head, hp, hf⟩ := e.functions_of_generate h
  have hmem {n : String} : n ∈ head.paramNames ↔ n = "websocket" ∨ n ∈ e.names := by
    rw [head.paramNames_perm.mem_iff, hp, e.mem_map_parameters]
  refine ⟨s, head, e.handlerBody s, hs, hf, e.exists_call_mem_texts s, ?_, ?_⟩
  · refine forall₂_congr fun n hn => ?_
    simp [e.mem_bindsOf_handlerBody, hn]
  · rw [hmem, e.mem_bindsOf_handlerBody]
    simp only [List.mem_append, List.mem_cons]
    by_cases hn : s.name ∈ e.names
    · simp [hn]
    · simp only [hn, or_false, not_false_eq_true, and_true, not_or]
      grind

/-- A chat whose room comes from the path: the room is left alone, and the
function can be called. -/
theorem names_undisturbed_chat :
    let e : Socket.Endpoint :=
      { path := "/ws/\x7broom_id\x7d", query := [], headers := [], mode := .event,
        message := [],
        validate := false, source := "async def chat(msg, room_id):\n    return msg" }
    ∃ items, e.generate.value = some items ∧ ∃ f ∈ functions items,
      (∀ n ∈ e.names, n ∉ bindsOf f.2) ∧ "chat" ∉ f.1.paramNames ∧
      "chat" ∉ bindsOf f.2 := by
  intro e
  have hs : Signature.ofSource? e.source = some ⟨"chat", ["msg", "room_id"], true, 0,
      0⟩ := by decide +kernel
  have hg : ∃ items, e.generate.value = some items := by
    rw [Socket.Endpoint.generate, hs]
    exact ⟨_, rfl⟩
  obtain ⟨items, hi⟩ := hg
  obtain ⟨s, head, body, hs', hf, -, hn, hc⟩ := names_undisturbed_iff e hi
  cases hs'.symm.trans hs
  refine ⟨items, hi, (head, body), by rw [hf]; exact List.mem_cons_self, ?_, ?_⟩
  · exact hn.2 (by decide +kernel)
  · exact hc.2 (by decide +kernel)

/-- A path that binds `response` has its value assigned in the loop. -/
theorem response_from_path_assigned :
    let e : Socket.Endpoint :=
      { path := "/ws/\x7bresponse\x7d", query := [], headers := [], mode := .event,
        message := [],
        validate := false, source := "def f(msg, response):\n    return response" }
    "response" ∈ e.names ∧
      ∃ f ∈ (e.generate.value.map functions).getD [], "response" ∈ bindsOf f.2 := by
  decide +kernel

end NotebookService
