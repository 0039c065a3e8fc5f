/-
# `NotebookService.Proofs.Endpoint.Names` — when a handler names each thing once

Python refuses a function that names a parameter twice and a call that gives a
keyword twice, and with it the whole module.  The names come from the path, the body,
the query and the headers, and from the parameters that every handler of its kind
has, `body` or `websocket`.

`names_distinct_iff` says for which endpoints the names are distinct.  A name that the
query or the headers repeat never does harm, since it is passed over where it comes
again.  Three cases are left: the path repeats a name, a declared name is that of the
handler's own parameter, and the body repeats a field.  The first two repeat a
parameter, the third a keyword.

The order in which parameters are written does not come into it, and the names are
compared as a list that is rearranged at will.
-/
import Mathlib.Data.List.Perm.Basic
import Mathlib.Data.List.Nodup
import NotebookService.Code.Layout
import NotebookService.Endpoint.Http
import NotebookService.Endpoint.Socket

namespace NotebookService

/-! ## Functions and calls in generated code -/

namespace Code

/-- The head and the body of a function. -/
def Statement.function? : Statement → Option (FunctionHead × List Statement)
  | .function head body => some (head, body)
  | _ => none

/-- The functions that generated code defines at its top level. -/
def functions (items : List Statement) : List (FunctionHead × List Statement) :=
  items.filterMap Statement.function?

/-- The names of a function's parameters, in the order in which they are written. -/
def FunctionHead.paramNames (f : FunctionHead) : List String :=
  (callOrder f.params).map Param.name

theorem callOrder_perm (ps : List Param) : (callOrder ps).Perm ps :=
  List.filter_append_perm _ ps

theorem FunctionHead.paramNames_perm (f : FunctionHead) :
    f.paramNames.Perm (f.params.map Param.name) :=
  (callOrder_perm f.params).map Param.name

mutual

/-- The lines and the headers of generated code at every depth. -/
def Statement.texts : Statement → List String
  | .line text => [text]
  | .block header body => header :: textsOf body
  | .function _ body => textsOf body
  | .blank | .verbatim _ | .model _ _ => []

def textsOf : List Statement → List String
  | [] => []
  | s :: ss => s.texts ++ textsOf ss

end

theorem textsOf_append (ss ts : List Statement) :
    textsOf (ss ++ ts) = textsOf ss ++ textsOf ts := by
  induction ss with
  | nil => rfl
  | cons s ss ih => rw [List.cons_append, textsOf, ih, textsOf, List.append_assoc]

/-- A call: positional arguments, and behind them keywords with their values. -/
def callText (function : String) (first : List String)
    (keywords : List (String × String)) : String :=
  function ++ "(" ++
    ", ".intercalate (first ++ keywords.map fun k => k.1 ++ "=" ++ k.2) ++ ")"

@[simp] theorem Param.name_ofField (f : Field) : (Param.ofField f).name = f.name := rfl

@[simp] theorem Param.name_ofHeader (f : Field) : (Param.ofHeader f).name = f.name := rfl

@[simp] theorem Param.name_typed (name type : String) :
    (Param.typed name type).name = name := rfl

end Code

open NotebookService.Code

/-! ## What a request brings in -/

theorem mem_fresh {seen names : List String} {n : String} :
    n ∈ fresh seen names ↔ n ∈ names ∧ n ∉ seen := by
  have h := mem_map_freshBy id seen names n
  rwa [List.map_id, List.map_id] at h

theorem nodup_fresh (seen names : List String) : (fresh seen names).Nodup := by
  have h := nodup_map_freshBy id seen names
  rwa [List.map_id] at h

namespace Route

variable (r : Route)

/-- All names that a request brings in, repeated as they are declared. -/
def names : List String := r.pathParams ++ r.queryNames ++ r.headerNames

/-- The names of the parameters for the path, the query and the headers. -/
def paramNames : List String := (r.pathParameters ++ r.requestParameters).map Param.name

theorem map_name_pathParameters : r.pathParameters.map Param.name = r.pathParams := by
  simp [pathParameters, Function.comp_def]

theorem map_name_requestParameters :
    r.requestParameters.map Param.name =
      (freshBy Field.name r.pathParams r.query).map Field.name ++
        (freshBy Field.name (r.pathParams ++ r.queryNames) r.headers).map Field.name := by
  simp [requestParameters, Function.comp_def]

theorem mem_requestParameters {n : String} :
    n ∈ r.requestParameters.map Param.name ↔
      (n ∈ r.queryNames ∨ n ∈ r.headerNames) ∧ n ∉ r.pathParams := by
  rw [map_name_requestParameters, List.mem_append, mem_map_freshBy, mem_map_freshBy,
    List.mem_append]
  show (n ∈ r.queryNames ∧ _) ∨ (n ∈ r.headerNames ∧ _) ↔ _
  by_cases hq : n ∈ r.queryNames
  · simp [hq]
  · simp [hq]

theorem nodup_requestParameters : (r.requestParameters.map Param.name).Nodup := by
  rw [map_name_requestParameters]
  refine List.nodup_append.2 ⟨nodup_map_freshBy _ _ _, nodup_map_freshBy _ _ _, ?_⟩
  rintro n hn m hm rfl
  have hq : n ∈ r.queryNames := ((mem_map_freshBy _ _ _ _).1 hn).1
  exact ((mem_map_freshBy _ _ _ _).1 hm).2 (List.mem_append_right _ hq)

theorem mem_paramNames {n : String} : n ∈ r.paramNames ↔ n ∈ r.names := by
  rw [paramNames, List.map_append, List.mem_append, map_name_pathParameters,
    mem_requestParameters, names, List.mem_append, List.mem_append]
  by_cases hp : n ∈ r.pathParams
  · simp [hp]
  · simp [hp]

/-- Only the path can repeat a parameter. -/
theorem nodup_paramNames : r.paramNames.Nodup ↔ r.pathParams.Nodup := by
  rw [paramNames, List.map_append, map_name_pathParameters, List.nodup_append]
  constructor
  · intro h
    exact h.1
  · intro h
    refine ⟨h, r.nodup_requestParameters, ?_⟩
    rintro n hn m hm rfl
    exact (r.mem_requestParameters.1 hm).2 hn

/-- With a parameter of the handler's own, that name must not be declared besides. -/
theorem nodup_cons_paramNames {own : String} :
    (own :: r.paramNames).Nodup ↔ r.pathParams.Nodup ∧ own ∉ r.names := by
  rw [List.nodup_cons, mem_paramNames, nodup_paramNames, and_comm]

end Route

/-! ## HTTP handlers -/

namespace Http.Endpoint

variable (e : Endpoint)

/-- What the function is called with, by name. -/
def keywords : List (String × String) :=
  e.bodyNames.map (fun n => (n, "body." ++ n)) ++ e.requestNames.map fun n => (n, n)

theorem arguments_eq : e.arguments = e.keywords.map fun k => k.1 ++ "=" ++ k.2 := by
  have hb (n : String) : n ++ "=body." ++ n = n ++ "=" ++ ("body." ++ n) := by
    show n ++ ("=" ++ "body.") ++ n = _
    simp only [String.append_assoc]
  simp only [arguments, keywords, hb, List.map_append, List.map_map, Function.comp_def]

theorem call_eq (s : Signature) :
    e.call s = "return " ++ s.awaiting ++ callText s.name [] e.keywords := by
  simp only [call, callText, arguments_eq, List.nil_append, String.append_assoc]

theorem map_fst_keywords : e.keywords.map (·.1) = e.bodyNames ++ e.requestNames := by
  simp [keywords, Function.comp_def]

theorem nodup_keywords : (e.keywords.map (·.1)).Nodup ↔ e.bodyNames.Nodup := by
  rw [map_fst_keywords, List.nodup_append]
  constructor
  · intro h
    exact h.1
  · intro h
    refine ⟨h, nodup_fresh _ _, ?_⟩
    rintro n hn m hm rfl
    exact (mem_fresh.1 hm).2 hn

theorem nodup_parameters (s : Signature) :
    ((e.parameters s).map Param.name).Nodup ↔
      e.pathParams.Nodup ∧ (e.body ≠ [] → "body" ∉ e.names) := by
  by_cases hb : e.body = []
  · have hp : (e.parameters s).map Param.name = e.paramNames := by
      simp [parameters, Route.paramNames, hb]
    rw [hp, e.nodup_paramNames]
    simp [hb]
  · have hp : ((e.parameters s).map Param.name).Perm ("body" :: e.paramNames) := by
      simp only [parameters, hb, List.isEmpty_iff, if_false, List.map_append,
        List.map_cons, Param.name_typed, Route.paramNames, List.append_assoc,
        List.cons_append, List.nil_append]
      exact List.perm_middle
    rw [hp.nodup_iff, e.nodup_cons_paramNames]
    simp [hb]

/-- Code comes from a function: the models, the handler and the cell's own code. -/
theorem exists_of_generate {items : List Statement} (h : e.generate.value = some items) :
    ∃ s, Signature.ofSource? e.source = some s ∧
      e.generate.findings = (noteMissing s e.declaredNames).findings ∧
      items = e.models s ++ [e.handler s, .verbatim e.source] := by
  unfold generate at h ⊢
  cases hs : Signature.ofSource? e.source with
  | none =>
      rw [hs] at h
      cases h
  | some s =>
      rw [hs] at h
      cases h
      exact ⟨s, rfl, List.append_nil _, rfl⟩

theorem functions_of_generate {items : List Statement}
    (h : e.generate.value = some items) :
    ∃ s, Signature.ofSource? e.source = some s ∧ ∃ head, head.params = e.parameters s ∧
      functions items = [(head, e.handlerBody s)] := by
  obtain ⟨s, hs, -, rfl⟩ := e.exists_of_generate h
  refine ⟨s, hs, ⟨[e.router s], true, s.name ++ "_endpoint", e.parameters s⟩, rfl, ?_⟩
  have hm : functions (e.models s) = [] := by
    unfold functions models
    split <;> split <;> rfl
  rw [functions] at hm ⊢
  rw [List.filterMap_append, hm]
  rfl

theorem call_mem_texts (s : Signature) : e.call s ∈ textsOf (e.handlerBody s) := by
  simp [handlerBody, textsOf, Statement.texts]

end Http.Endpoint

/-! ## Socket handlers -/

namespace Socket.Endpoint

variable (e : Endpoint)

/-- What the function is called with, by name. -/
def keywords : List (String × String) := e.boundNames.map fun n => (n, n)

theorem call_eq (s : Signature) (first : Option String) :
    e.call s first = callText s.name first.toList e.keywords := by
  simp [call, callText, keywords, Function.comp_def]

/-- A keyword is never repeated: the names are collected first. -/
theorem nodup_keywords : (e.keywords.map (·.1)).Nodup := by
  have hk : e.keywords.map (·.1) = e.boundNames := by simp [keywords, Function.comp_def]
  rw [hk]
  exact nodup_fresh _ _

theorem nodup_parameters :
    (e.parameters.map Param.name).Nodup ↔ e.pathParams.Nodup ∧ "websocket" ∉ e.names :=
  e.nodup_cons_paramNames

theorem exists_of_generate {items : List Statement} (h : e.generate.value = some items) :
    ∃ s, Signature.ofSource? e.source = some s ∧
      e.generate.findings = (e.check s).findings ∧
      items = (if e.validates then [.model (messageModel s) e.message] else []) ++
        [e.handler s, .verbatim e.source] := by
  unfold generate at h ⊢
  cases hs : Signature.ofSource? e.source with
  | none =>
      rw [hs] at h
      cases h
  | some s =>
      rw [hs] at h
      cases h
      exact ⟨s, rfl, List.append_nil _, rfl⟩

theorem functions_of_generate {items : List Statement}
    (h : e.generate.value = some items) :
    ∃ s, Signature.ofSource? e.source = some s ∧ ∃ head, head.params = e.parameters ∧
      functions items = [(head, e.handlerBody s)] := by
  obtain ⟨s, hs, -, rfl⟩ := e.exists_of_generate h
  refine ⟨s, hs, ⟨["router.websocket(" ++ literal e.path ++ ")"], true,
      s.name ++ "_websocket", e.parameters⟩, rfl, ?_⟩
  cases e.validates <;> rfl

/-- Every mode calls the function, and a frame that it is given has been
assigned further up. -/
theorem exists_call_prefix (s : Signature) :
    ∃ before lead first,
      before ++ [lead ++ e.call s first] <+: textsOf (e.handlerBody s) ∧
      first.isSome = e.takesInput ∧
      ∀ x ∈ first, ∃ value, x ++ " = " ++ value ∈ before := by
  cases hm : e.mode with
  | event =>
      refine ⟨textsOf e.identity ++
        ["await manager.connect(websocket, room_id, client_id)", "try", "while True",
          "event_data = await websocket.receive_text()"], "response = " ++ s.awaiting,
          some "event_data", ?_, ?_, ?_⟩
      · simp [handlerBody, hm, textsOf_append, eventLoop, guarded, connecting, textsOf,
          Statement.texts]
      · simp [takesInput, hm]
      · rintro x ⟨⟩
        exact ⟨"await websocket.receive_text()", List.mem_append_right _ (by decide)⟩
  | stream =>
      cases he : e.message.isEmpty with
      | true =>
          refine ⟨textsOf e.identity ++ ["while True"], "async for data in ",
            none, ?_, ?_, ?_⟩
          · simp [handlerBody, hm, textsOf_append, streamFunction, streamBody, he, drain,
              textsOf, Statement.texts]
          · simp [takesInput, hm, he]
          · rintro x ⟨⟩
      | false =>
          refine ⟨textsOf e.identity ++
            ("user_input = " ++ if e.validates then "\x7b\x7d" else "''") ::
            "while True" :: "try" ::
            ("new_input = await asyncio.wait_for(websocket.receive_text(), timeout=" ++
              receiveTimeout ++ ")") ::
            (textsOf (e.acceptInput s) ++ ["except asyncio.TimeoutError", "pass"]),
            "async for data in ", some "user_input", ?_, ?_, ?_⟩
          · simp [handlerBody, hm, textsOf_append, streamFunction, streamBody, he, drain,
              textsOf, Statement.texts]
          · simp [takesInput, he]
          · rintro x ⟨⟩
            exact ⟨_, List.mem_append_right _ List.mem_cons_self⟩

theorem exists_call_mem_texts (s : Signature) :
    ∃ before first, before ++ e.call s first ∈ textsOf (e.handlerBody s) := by
  obtain ⟨before, lead, first, h, -, -⟩ := e.exists_call_prefix s
  exact ⟨lead, first, h.subset (List.mem_append_right _ List.mem_cons_self)⟩

end Socket.Endpoint

/-! ## Both kinds -/

/-- A generated handler has distinct parameters unless the path repeats a name or a
declared name is that of the handler's own parameter; its call has distinct keywords
unless the body repeats a field. -/
theorem names_distinct_iff (h : Http.Endpoint) (k : Socket.Endpoint) :
    (∀ items, h.generate.value = some items →
      ∃ s head body, Signature.ofSource? h.source = some s ∧
        functions items = [(head, body)] ∧
        (head.paramNames.Nodup ↔ h.pathParams.Nodup ∧ (h.body ≠ [] → "body" ∉ h.names)) ∧
        "return " ++ s.awaiting ++ callText s.name [] h.keywords ∈ textsOf body ∧
        ((h.keywords.map (·.1)).Nodup ↔ h.bodyNames.Nodup)) ∧
    ∀ items, k.generate.value = some items →
      ∃ s head body, Signature.ofSource? k.source = some s ∧
        functions items = [(head, body)] ∧
        (head.paramNames.Nodup ↔ k.pathParams.Nodup ∧ "websocket" ∉ k.names) ∧
        (∃ before first, before ++ callText s.name first k.keywords ∈ textsOf body) ∧
        (k.keywords.map (·.1)).Nodup := by
  constructor
  · intro items hi
    obtain ⟨s, hs, head, hp, hf⟩ := h.functions_of_generate hi
    refine ⟨s, head, h.handlerBody s, hs, hf, ?_, ?_, h.nodup_keywords⟩
    · rw [head.paramNames_perm.nodup_iff, hp, h.nodup_parameters]
    · rw [← h.call_eq]
      exact h.call_mem_texts s
  · intro items hi
    obtain ⟨s, hs, head, hp, hf⟩ := k.functions_of_generate hi
    refine ⟨s, head, k.handlerBody s, hs, hf, ?_, ?_, k.nodup_keywords⟩
    · rw [head.paramNames_perm.nodup_iff, hp, k.nodup_parameters]
    · obtain ⟨before, first, hc⟩ := k.exists_call_mem_texts s
      rw [k.call_eq] at hc
      exact ⟨before, first.toList, hc⟩

/-- A path that names a parameter twice gives a handler that does so too. -/
theorem parameter_repeated_by_path :
    let e : Http.Endpoint :=
      { path := "/a/\x7bx\x7d/b/\x7bx\x7d", query := [], headers := [], verb := .get,
        body := [], resp := [],
        source := "def f(x):\n    return x" }
    ∃ f ∈ (e.generate.value.map functions).getD [], ¬ f.1.paramNames.Nodup := by
  decide +kernel

end NotebookService
