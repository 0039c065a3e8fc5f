/-
# `NotebookService.Proofs.Endpoint.Binding` — when the call of a socket's function binds

A socket handler calls the cell's function with a frame in front, if the socket takes
input, and with the names of the request as keywords.  Python binds the frame to the
first parameter and each keyword to the parameter of its name, and refuses a call that
gives a parameter two values or gives a value to none.

Two remarks are made about this: that the function lacks a name, and that it has no
parameters although it is given a frame.  They leave out one case, in which each of the
two is content: the first parameter is there, and it is one of the names of the request.
`call_binds_iff` says that there is no other.
-/
import NotebookService.Proofs.Endpoint.Agreement

namespace NotebookService

open NotebookService.Code

/-! ## Binding -/

/-- What Python asks of a call with at most one positional argument: that argument
has a parameter, the first one, which no keyword names again, and each keyword
names a parameter. -/
structure Binds (params : List String) (first : Option String) (keywords : List String) :
    Prop where
  taken : first.isSome = true → params ≠ []
  once : first.isSome = true → ∀ p ∈ params.head?, p ∉ keywords
  known : ∀ k ∈ keywords, k ∈ params

/-- The finding says that a call does not fit the function. -/
def Finding.isMisfit : Finding → Bool
  | .argumentsMissing _ _ | .inputUntaken _ => true
  | _ => false

/-! ## Remarks -/

theorem fits_noteMissing_iff (s : Signature) (names : List String) :
    (∀ f ∈ (noteMissing s names).findings, f.isMisfit = false) ↔
      ∀ n ∈ names, n ∈ s.params := by
  rw [← s.lacking_eq_nil_iff, noteMissing, s.missingNames_eq]
  by_cases h : s.lacking names = []
  · simp [h]
  · simp [h, Finding.isMisfit]

namespace Socket.Endpoint

variable (e : Endpoint)

/-- The four remarks about a socket's function, each for its own reason. -/
theorem findings_check (s : Signature) : (e.check s).findings =
    (noteMissing s e.boundNames).findings ++
      ((if e.takesInput && s.params.isEmpty then [.inputUntaken s.name] else []) ++
        ((if e.mode = .stream && !s.isAsync then [.streamNotAsync s.name] else []) ++
          if e.mode = .event && !e.message.isEmpty then [.messageIgnored] else [])) := by
  unfold check
  rw [Noted.findings_bind]
  refine congrArg _ ?_
  split <;> split <;> split <;> rfl

theorem fits_check_iff (s : Signature) :
    (∀ f ∈ (e.check s).findings, f.isMisfit = false) ↔
      (∀ n ∈ e.names, n ∈ s.params) ∧ (e.takesInput = true → s.params ≠ []) := by
  have hnames : (∀ n ∈ e.boundNames, n ∈ s.params) ↔ ∀ n ∈ e.names, n ∈ s.params :=
    forall_congr' fun n => by rw [e.mem_boundNames]
  rw [e.findings_check, List.forall_mem_append, fits_noteMissing_iff, hnames]
  refine and_congr_right fun _ => ?_
  -- of the other three remarks only the first is about the call
  rw [List.forall_mem_append, List.forall_mem_append]
  constructor
  · rintro ⟨hinput, -⟩ hi hp
    have hf := hinput (.inputUntaken s.name) (by simp [hi, hp])
    cases hf
  · intro hinput
    refine ⟨?_, ?_, ?_⟩
    · cases hi : e.takesInput with
      | false => simp
      | true => simp [hinput hi]
    · split <;> simp [Finding.isMisfit]
    · split <;> simp [Finding.isMisfit]

end Socket.Endpoint

/-- The call in a socket's handler binds to the parameters of the function when no
remark says that it does not fit and, if the socket takes input, the first parameter is
not one of the names of the request; and only then.  So where nothing at all is
remarked, it is the first parameter that decides. -/
theorem call_binds_iff (e : Socket.Endpoint) {items : List Statement}
    (h : e.generate.value = some items) :
    ∃ s head body, Signature.ofSource? e.source = some s ∧
      functions items = [(head, body)] ∧
      ∃ before lead first, before ++ [lead ++ callWith s.name first e.passed] <+:
      textsOf body ∧
        first.isSome = e.takesInput ∧
        (Binds s.params first (e.passed.map (·.1)) ↔
          (∀ f ∈ e.generate.findings, f.isMisfit = false) ∧
            (e.takesInput = true → ∀ p ∈ s.params.head?, p ∉ e.names)) := by
  obtain ⟨s, hs, hfindings, -⟩ := e.exists_of_generate h
  obtain ⟨s', hs', head, -, hf⟩ := e.functions_of_generate h
  cases hs.symm.trans hs'
  obtain ⟨before, lead, first, hcall, hfirst, -⟩ := e.exists_call_prefix s
  rw [e.call_eq_callWith] at hcall
  refine ⟨s, head, e.handlerBody s, hs, hf, before, lead, first, hcall, hfirst, ?_⟩
  rw [hfindings, e.fits_check_iff]
  constructor
  · rintro ⟨htaken, honce, hknown⟩
    rw [hfirst] at htaken honce
    refine ⟨⟨fun n hn => hknown n (e.mem_map_passed.2 hn), htaken⟩, fun hi p hp hn => ?_⟩
    exact honce hi p hp (e.mem_map_passed.2 hn)
  · rintro ⟨⟨hnames, hparams⟩, honce⟩
    rw [← hfirst] at hparams honce
    refine ⟨hparams, fun hi p hp hn => ?_, fun n hn => hnames n (e.mem_map_passed.1 hn)⟩
    exact honce hi p hp (e.mem_map_passed.1 hn)

/-- A chat whose room comes from the path, behind the message. -/
theorem call_binds_iff_chat :
    let e : Socket.Endpoint :=
      { path := "/ws/\x7broom_id\x7d", query := [], headers := [], mode := .event,
        message := [],
        validate := false, source := "async def chat(msg, room_id):\n    return msg" }
    ∃ items, e.generate.value = some items ∧ e.generate.findings = [] ∧
      ∃ s first, Signature.ofSource? e.source = some s ∧ first.isSome = true ∧
        Binds s.params first (e.passed.map (·.1)) := by
  intro e
  have hs : Signature.ofSource? e.source = some ⟨"chat", ["msg", "room_id"], true, 0,
      0⟩ := by decide +kernel
  have hg : ∃ items, e.generate.value = some items := by
    rw [Socket.Endpoint.generate, hs]
    exact ⟨_, rfl⟩
  obtain ⟨items, hi⟩ := hg
  have hf : e.generate.findings = [] := by decide +kernel
  obtain ⟨s, head, body, hs', -, before, lead, first, -, hfirst, hb⟩ :=
    call_binds_iff e hi
  cases hs'.symm.trans hs
  refine ⟨items, hi, hf, _, first, hs, hfirst, hb.2 ⟨?_, ?_⟩⟩
  · rw [hf]
    nofun
  · decide +kernel

/-- A chat function with no parameter but the room is given it twice, the first time by
the message, and nothing is remarked. -/
theorem room_given_twice :
    let e : Socket.Endpoint :=
      { path := "/ws/\x7broom_id\x7d", query := [], headers := [], mode := .event,
        message := [],
        validate := false, source := "def chat(room_id):\n    return room_id" }
    ∃ s, Signature.ofSource? e.source = some s ∧ e.generate.findings = [] ∧
      (∃ f ∈ (e.generate.value.map functions).getD [],
        "response = " ++ callWith s.name (some "event_data") e.passed ∈ textsOf f.2) ∧
      ¬ Binds s.params (some "event_data") (e.passed.map (·.1)) := by
  intro e
  have hs : Signature.ofSource? e.source = some ⟨"chat", ["room_id"], false, 0, 0⟩ := by
    decide +kernel
  refine ⟨_, hs, by decide +kernel, by decide +kernel, fun hb => ?_⟩
  exact hb.once rfl "room_id" rfl (by decide +kernel)

end NotebookService
