/-
# `NotebookService.Proofs.Endpoint.ParameterOrder` — which parameters are written first

Python takes no parameter without a default behind one that has a default.  Whoever puts
a function together need not think of this: its parameters come in any order, and the
line that opens it has those without a default first, each of the two groups in its own
order.  There is only one such order (`RequiredFirst.eq_callOrder`).

`required_parameters_first` says this of every function, and says what follows for the
handlers, whose parameters come from the path, the body, the query and the headers.  A
header always has a default, since it is bound by one.  So what moves is the query,
which is split into the fields that have to be there and those that may be missing.
-/
import NotebookService.Proofs.Endpoint.Names

namespace NotebookService

open NotebookService.Code

/-! ## The line that opens a function -/

namespace Code

variable {ps qs : List Param}

/-- No parameter without a default stands behind one that has a default. -/
def RequiredFirst (ps : List Param) : Prop :=
  ps.Pairwise fun p q => q.isRequired = true → p.isRequired = true

theorem requiredFirst_append (hp : ∀ p ∈ ps, p.isRequired = true)
    (hq : ∀ q ∈ qs, q.isRequired = false) :
    RequiredFirst (ps ++ qs) := by
  refine List.pairwise_append.2 ⟨?_, ?_, ?_⟩
  · exact List.pairwise_of_forall_mem_list fun p hm _ _ _ => hp p hm
  · refine List.pairwise_of_forall_mem_list fun _ _ q hm hr => ?_
    rw [hq q hm] at hr
    cases hr
  · intro p hm _ _ _
    exact hp p hm

theorem requiredFirst_callOrder (ps : List Param) : RequiredFirst (callOrder ps) := by
  refine requiredFirst_append ?_ ?_
  · intro p hp
    exact (List.mem_filter.1 hp).2
  · intro p hp
    simpa using (List.mem_filter.1 hp).2

theorem RequiredFirst.callOrder_eq (h : RequiredFirst ps) : callOrder ps = ps := by
  induction ps with
  | nil => rfl
  | cons p ps ih =>
      obtain ⟨hp, hps⟩ := List.pairwise_cons.1 h
      cases hr : p.isRequired with
      | true =>
          have hc : callOrder (p :: ps) = p :: callOrder ps := by simp [callOrder, hr]
          rw [hc, ih hps]
      | false =>
          have hd : ∀ q ∈ p :: ps, q.isRequired = false := by
            intro q hq
            rcases List.mem_cons.1 hq with rfl | hq
            · exact hr
            · cases hq' : q.isRequired with
              | false => rfl
              | true => exact (hp q hq hq').symm.trans hr
          have hrequired : (p :: ps).filter Param.isRequired = [] :=
            List.filter_eq_nil_iff.2 fun q hq => by simp [hd q hq]
          have hdefaulted : (p :: ps).filter (fun q => !q.isRequired) = p :: ps :=
            List.filter_eq_self.2 fun q hq => by simp [hd q hq]
          rw [callOrder, hrequired, hdefaulted, List.nil_append]

/-- The order is settled by the order within the two groups. -/
theorem RequiredFirst.eq_callOrder (h : RequiredFirst ps)
    (hr : ps.filter Param.isRequired = qs.filter Param.isRequired)
    (hd : (ps.filter fun p => !p.isRequired) = qs.filter fun p => !p.isRequired) :
    ps = callOrder qs := by
  rw [← h.callOrder_eq, callOrder, callOrder, hr, hd]

namespace FunctionHead

/-- The line that opens the function lists these parameters in this order.  They are the
function's own, those without a default first, and within the two groups none has
changed its place. -/
structure Writes (f : FunctionHead) (ps : List Param) : Prop where
  text : f.text = (if f.isAsync then "async " else "") ++ "def " ++ f.name ++ "(" ++
    ", ".intercalate (ps.map Param.text) ++ "):"
  perm : ps.Perm f.params
  requiredFirst : RequiredFirst ps
  required : ps.filter Param.isRequired = f.params.filter Param.isRequired
  defaulted : (ps.filter fun p => !p.isRequired) = f.params.filter fun p => !p.isRequired

theorem writes_callOrder (f : FunctionHead) : f.Writes (callOrder f.params) where
  text := rfl
  perm := callOrder_perm f.params
  requiredFirst := requiredFirst_callOrder f.params
  required := by simp [callOrder]
  defaulted := by simp [callOrder]

theorem Writes.eq_callOrder {f : FunctionHead} (h : f.Writes ps) :
    ps = callOrder f.params :=
  h.requiredFirst.eq_callOrder h.required h.defaulted

theorem text_mem_lines (f : FunctionHead) (level : Nat) (body : List Statement) :
    indented level f.text.toList ∈ (Statement.function f body).lines level := by
  rw [Statement.lines]
  refine List.mem_append_left _ (List.mem_map.2 ⟨f.text, ?_, rfl⟩)
  exact List.mem_append_right _ (List.mem_singleton.2 rfl)

end FunctionHead

end Code

/-! ## The handlers of endpoints -/

namespace Route

variable (r : Route)

/-- The fields of the query that are parameters. -/
def queryFields : List Field := freshBy Field.name r.pathParams r.query

/-- The headers that are parameters. -/
def headerFields : List Field :=
  freshBy Field.name (r.pathParams ++ r.queryNames) r.headers

/-- What the query and the headers add behind parameters without a default. -/
def requestOrder : List Param :=
  (r.queryFields.filter fun f => !f.optional).map .ofField ++
    (r.queryFields.filter Field.optional).map .ofField ++
    r.headerFields.map .ofHeader

theorem isRequired_of_mem_pathParameters {p : Param} (hp : p ∈ r.pathParameters) :
    p.isRequired = true := by
  obtain ⟨n, -, rfl⟩ := List.mem_map.1 hp
  rfl

@[simp] theorem isRequired_ofField (f : Field) :
    (Param.ofField f).isRequired = !f.optional := by
  cases h : f.optional <;> simp [Param.ofField, Param.isRequired, h]

@[simp] theorem isRequired_ofHeader (f : Field) :
    (Param.ofHeader f).isRequired = false := rfl

theorem callOrder_append_requestParameters {ps : List Param}
    (hp : ∀ p ∈ ps, p.isRequired = true) :
    callOrder (ps ++ r.requestParameters) = ps ++ r.requestOrder := by
  have hrequired : ps.filter Param.isRequired = ps := List.filter_eq_self.2 hp
  have hdefaulted : (ps.filter fun p => !p.isRequired) = [] :=
    List.filter_eq_nil_iff.2 fun p hm => by simp [hp p hm]
  simp [callOrder, requestParameters, requestOrder, queryFields, headerFields, hrequired,
    hdefaulted, List.filter_map, Function.comp_def]

end Route

namespace Http.Endpoint

variable (e : Endpoint)

/-- The parameter for the body of a request. -/
def bodyParameters (s : Signature) : List Param :=
  if e.body.isEmpty then [] else [.typed "body" (requestModel s)]

theorem callOrder_parameters (s : Signature) :
    callOrder (e.parameters s) =
      e.pathParameters ++ e.bodyParameters s ++ e.requestOrder := by
  refine e.callOrder_append_requestParameters ?_
  intro p hp
  rcases List.mem_append.1 hp with hp | hp
  · exact e.isRequired_of_mem_pathParameters hp
  · split at hp
    · cases hp
    · rw [List.mem_singleton.1 hp]
      rfl

end Http.Endpoint

namespace Socket.Endpoint

variable (e : Endpoint)

theorem callOrder_parameters :
    callOrder e.parameters =
      .typed "websocket" "WebSocket" :: e.pathParameters ++ e.requestOrder := by
  have h : ∀ p ∈ .typed "websocket" "WebSocket" :: e.pathParameters,
      p.isRequired = true := by
    intro p hp
    rcases List.mem_cons.1 hp with rfl | hp
    · rfl
    · exact e.isRequired_of_mem_pathParameters hp
  exact e.callOrder_append_requestParameters h

end Socket.Endpoint

/-- A function is opened by a line that lists its parameters, those without a default
first.  For a handler these are the parameters of the path, that of the body or the
socket, and the fields of the query that have to be there; then come those that may be
missing, and the headers. -/
theorem required_parameters_first (f : FunctionHead) (h : Http.Endpoint)
    (k : Socket.Endpoint) :
    (∃ ps, f.Writes ps ∧ (∀ qs, f.Writes qs → qs = ps) ∧
      ∀ level body, indented level f.text.toList ∈
        (Statement.function f body).lines level) ∧
    (∀ items, h.generate.value = some items → ∃ s head body,
      Signature.ofSource? h.source = some s ∧ functions items = [(head, body)] ∧
        head.Writes (h.pathParameters ++ h.bodyParameters s ++ h.requestOrder)) ∧
    ∀ items, k.generate.value = some items → ∃ s head body,
      Signature.ofSource? k.source = some s ∧ functions items = [(head, body)] ∧
        head.Writes (.typed "websocket" "WebSocket" :: k.pathParameters ++
          k.requestOrder) := by
  refine ⟨⟨callOrder f.params, f.writes_callOrder, fun qs hq => hq.eq_callOrder,
      f.text_mem_lines⟩, ?_, ?_⟩
  · intro items hi
    obtain ⟨s, hs, head, hp, hf⟩ := h.functions_of_generate hi
    refine ⟨s, head, h.handlerBody s, hs, hf, ?_⟩
    rw [← h.callOrder_parameters, ← hp]
    exact head.writes_callOrder
  · intro items hi
    obtain ⟨s, hs, head, hp, hf⟩ := k.functions_of_generate hi
    refine ⟨s, head, k.handlerBody s, hs, hf, ?_⟩
    rw [← k.callOrder_parameters, ← hp]
    exact head.writes_callOrder

end NotebookService
