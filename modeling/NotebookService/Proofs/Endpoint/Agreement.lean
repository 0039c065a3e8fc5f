/-
# `NotebookService.Proofs.Endpoint.Agreement` — handler, call and remarks agree

The declared names of an endpoint are gone through three times: for the parameters of
the handler, for the arguments of the call, and for the remark that the function does
not take them all.  Each time the order is another one, and each time a name that
comes again is passed over in another way.  What does not depend on the order agrees:
the call passes every declared name and no other, and it reads nothing that the
handler does not have.

What depends on the order is the remark.  It is made when the function lacks a
declared name, and it lists each such name where it is declared first.  `fresh` drops
repeats by remembering what it has seen, `eraseDups` by looking ahead; `fresh_eq`
says that they drop the same.

`body` is a parameter of an HTTP handler when there is a body, and else only as any
other name is: when the path, the query or the headers declare it.
-/
import NotebookService.Proofs.Endpoint.Names

namespace NotebookService

open NotebookService.Code

/-! ## Each name once -/

theorem fresh_cons (seen : List String) (x : String) (xs : List String) :
    fresh seen (x :: xs) = if x ∈ seen then fresh seen xs
      else x :: fresh (x :: seen) xs := rfl

theorem fresh_eq (seen xs : List String) :
    fresh seen xs = (xs.filter (· ∉ seen)).eraseDups := by
  induction xs generalizing seen with
  | nil => rfl
  | cons x xs ih =>
      rw [fresh_cons]
      split
      · rename_i h
        rw [ih, List.filter_cons_of_neg (by simpa using h)]
      · rename_i h
        have hf : xs.filter (· ∉ x :: seen) =
            (xs.filter (· ∉ seen)).filter fun y => !y == x := by
          rw [List.filter_filter]
          refine List.filter_congr fun y _ => ?_
          by_cases hy : y = x <;> simp [hy]
        rw [ih, hf, List.filter_cons_of_pos (by simpa using h), List.eraseDups_cons]

theorem fresh_nil_eq (xs : List String) : fresh [] xs = xs.eraseDups := by
  rw [fresh_eq]
  simp

theorem fresh_nil_of_nodup {xs : List String} (h : xs.Nodup) : fresh [] xs = xs := by
  rw [fresh_nil_eq]
  induction xs with
  | nil => rfl
  | cons x xs ih =>
      obtain ⟨hx, hxs⟩ := List.nodup_cons.1 h
      have hf : (xs.filter fun y => !y == x) = xs := List.filter_eq_self.2 fun y hy => by
        simpa using ne_of_mem_of_not_mem hy hx
      rw [List.eraseDups_cons, hf, ih hxs]

/-- A name that does not come again need not be remembered. -/
theorem fresh_cons_of_not_mem {seen xs : List String} {x : String} (h : x ∉ xs) :
    fresh (x :: seen) xs = fresh seen xs := by
  rw [fresh_eq, fresh_eq]
  refine congrArg List.eraseDups (List.filter_congr fun y hy => ?_)
  have hne : y ≠ x := ne_of_mem_of_not_mem hy h
  simp [hne]

/-- Dropping repeats and dropping names can be done in either order. -/
theorem filter_fresh (p : String → Bool) (seen xs : List String) :
    (fresh seen xs).filter p = fresh seen (xs.filter p) := by
  induction xs generalizing seen with
  | nil => rfl
  | cons x xs ih =>
      rw [fresh_cons]
      cases hp : p x with
      | true =>
          rw [List.filter_cons_of_pos hp, fresh_cons]
          split
          · exact ih seen
          · rw [List.filter_cons_of_pos hp, ih]
      | false =>
          have hx : x ∉ xs.filter p := by simp [hp]
          rw [List.filter_cons_of_neg (by simp [hp])]
          split
          · exact ih seen
          · rw [List.filter_cons_of_neg (by simp [hp]), ih, fresh_cons_of_not_mem hx]

/-! ## Remarks -/

/-- The function and the names that it is said not to take. -/
def Finding.missing? : Finding → Option (String × List String)
  | .argumentsMissing function names => some (function, names)
  | _ => none

namespace Signature

variable (s : Signature)

/-- The names that are no parameters of the function, each where it comes first. -/
def lacking (names : List String) : List String := (names.filter (· ∉ s.params)).eraseDups

theorem missingNames_eq (names : List String) :
    missingNames s names = s.lacking names := by
  rw [missingNames, fresh_nil_eq, lacking]
  refine congrArg List.eraseDups (List.filter_congr fun n _ => ?_)
  simp [hasParam]

theorem lacking_fresh (names : List String) :
    s.lacking (fresh [] names) = s.lacking names := by
  have hn : ((fresh [] names).filter (· ∉ s.params)).Nodup :=
    (nodup_fresh [] names).filter _
  rw [lacking, ← fresh_nil_eq, fresh_nil_of_nodup hn, filter_fresh, fresh_nil_eq, lacking]

theorem noteMissing_fresh (names : List String) :
    noteMissing s (fresh [] names) = noteMissing s names := by
  simp only [noteMissing, missingNames_eq, lacking_fresh]

theorem lacking_eq_nil_iff {names : List String} :
    s.lacking names = [] ↔ ∀ n ∈ names, n ∈ s.params := by
  rw [List.eq_nil_iff_forall_not_mem]
  simp only [lacking, List.mem_eraseDups, List.mem_filter, decide_eq_true_eq,
    not_and, not_not]

/-- The remark is made when a name is lacking, and says which. -/
theorem missing?_noteMissing (names : List String) :
    (noteMissing s names).findings.filterMap Finding.missing? =
      if ∀ n ∈ names, n ∈ s.params then [] else [(s.name, s.lacking names)] := by
  rw [noteMissing, s.missingNames_eq]
  by_cases h : s.lacking names = []
  · rw [if_pos (s.lacking_eq_nil_iff.1 h), h]
    rfl
  · rw [if_neg (mt s.lacking_eq_nil_iff.2 h)]
    simp [h, Finding.missing?]

end Signature

/-! ## What is passed -/

/-- What is passed under a keyword: a variable of the handler, or a field of
the request's body. -/
inductive PassedValue where
  | variable (name : String)
  | bodyField (name : String)
  deriving DecidableEq, Repr

namespace PassedValue

def text : PassedValue → String
  | .variable name => name
  | .bodyField name => "body." ++ name

/-- The variable that is read for it. -/
def reads : PassedValue → String
  | .variable name => name
  | .bodyField _ => "body"

end PassedValue

/-- A call with at most one positional argument, and keywords behind it. -/
def callWith (function : String) (first : Option String)
    (passed : List (String × PassedValue)) : String :=
  callText function first.toList (passed.map fun k => (k.1, k.2.text))

/-! ## HTTP handlers -/

namespace Http.Endpoint

variable (e : Endpoint) {n : String}

def passed : List (String × PassedValue) :=
  e.bodyNames.map (fun n => (n, .bodyField n)) ++ e.requestNames.map fun n =>
    (n, .variable n)

theorem call_eq_callWith (s : Signature) :
    e.call s = "return " ++ s.awaiting ++ callWith s.name none e.passed := by
  have hk : e.passed.map (fun k => (k.1, k.2.text)) = e.keywords := by
    simp [passed, keywords, PassedValue.text, Function.comp_def]
  rw [e.call_eq, callWith, hk]
  rfl

theorem mem_requestNames : n ∈ e.requestNames ↔ n ∈ e.names ∧ n ∉ e.bodyNames := by
  rw [requestNames, mem_fresh, Route.names,
    (List.perm_append_comm.append_right e.headerNames).mem_iff]

/-- A field of the body is read from the body, also where the request brings in a
value of that name. -/
theorem mem_passed {v : PassedValue} :
    (n, v) ∈ e.passed ↔
      (n ∈ e.bodyNames ∧ v = .bodyField n) ∨
      ((n ∈ e.names ∧ n ∉ e.bodyNames) ∧ v = .variable n) := by
  rw [passed, List.mem_append, List.mem_map, List.mem_map, ← e.mem_requestNames]
  simp only [Prod.mk.injEq]
  grind

theorem mem_map_passed : n ∈ e.passed.map (·.1) ↔ n ∈ e.bodyNames ∨ n ∈ e.names := by
  have hk : e.passed.map (·.1) = e.bodyNames ++ e.requestNames := by
    simp [passed, Function.comp_def]
  rw [hk, List.mem_append, e.mem_requestNames]
  by_cases hb : n ∈ e.bodyNames <;> simp [hb]

theorem mem_map_parameters (s : Signature) :
    n ∈ (e.parameters s).map Param.name ↔ n ∈ e.names ∨ (n = "body" ∧ e.body ≠ []) := by
  rw [← e.mem_paramNames]
  by_cases hb : e.body = []
  · simp [parameters, Route.paramNames, hb]
  · simp only [parameters, hb, List.isEmpty_iff, if_false, List.map_append, List.map_cons,
      List.map_nil, List.mem_append, List.mem_singleton, Route.paramNames,
      Param.name_typed, ne_eq, not_false_eq_true, and_true]
    exact or_right_comm

/-- A field of the body is read from `body`, which is a parameter then; all else
is a parameter itself. -/
theorem reads_mem_parameters (s : Signature) {k : String × PassedValue}
    (h : k ∈ e.passed) :
    k.2.reads ∈ (e.parameters s).map Param.name := by
  obtain ⟨n, v⟩ := k
  rw [e.mem_map_parameters]
  rcases e.mem_passed.1 h with ⟨hn, rfl⟩ | ⟨⟨hn, -⟩, rfl⟩
  · refine .inr ⟨rfl, fun hb => ?_⟩
    rw [bodyNames, hb] at hn
    cases hn
  · exact .inl hn

end Http.Endpoint

/-! ## Socket handlers -/

namespace Socket.Endpoint

variable (e : Endpoint) {n : String}

def passed : List (String × PassedValue) := e.boundNames.map fun n => (n, .variable n)

theorem call_eq_callWith (s : Signature) (first : Option String) :
    e.call s first = callWith s.name first e.passed := by
  rw [e.call_eq, callWith, passed, keywords, List.map_map]
  rfl

theorem mem_boundNames : n ∈ e.boundNames ↔ n ∈ e.names := by
  rw [boundNames, mem_fresh, Route.names]
  simp

theorem mem_map_passed : n ∈ e.passed.map (·.1) ↔ n ∈ e.names := by
  have hk : e.passed.map (·.1) = e.boundNames := by simp [passed, Function.comp_def]
  rw [hk, e.mem_boundNames]

theorem reads_mem_parameters {k : String × PassedValue} (h : k ∈ e.passed) :
    k.2.reads ∈ e.parameters.map Param.name := by
  obtain ⟨n, hn, rfl⟩ := List.mem_map.1 h
  exact List.mem_cons_of_mem _ (e.mem_paramNames.2 (e.mem_boundNames.1 hn))

/-- Only one of the remarks about a socket's function is about names. -/
theorem missing?_check (s : Signature) :
    (e.check s).findings.filterMap Finding.missing? =
      (noteMissing s e.boundNames).findings.filterMap Finding.missing? := by
  unfold check
  simp only [Noted.findings_bind, List.filterMap_append]
  -- the other three remarks are made or not, each for its own reason, and none of
  -- them is about names
  split <;> split <;> split <;> simp [Finding.missing?]

end Socket.Endpoint

/-! ## Both kinds -/

/-- The call of a generated handler passes the declared names and no others, and reads
only what the handler has: its parameters, the fields of its body, and a frame that was
assigned further up.  The remark that names are missing lists those declared names, each
once, that the function does not take.

The handler has a parameter `body` when there is a body, and when the path, the query or
the headers declare that name. -/
theorem names_agree (h : Http.Endpoint) (k : Socket.Endpoint) :
    (∀ items, h.generate.value = some items →
      ∃ s head body, Signature.ofSource? h.source = some s ∧
        functions items = [(head, body)] ∧
        "return " ++ s.awaiting ++ callWith s.name none h.passed ∈ textsOf body ∧
        (∀ n, n ∈ h.passed.map (·.1) ↔ n ∈ h.bodyNames ∨ n ∈ h.names) ∧
        (∀ n ∈ h.bodyNames, (n, .bodyField n) ∈ h.passed) ∧
        (∀ p ∈ h.passed, p.2.reads ∈ head.paramNames) ∧
        (h.body ≠ [] → .typed "body" (Http.Endpoint.requestModel s) ∈ head.params) ∧
        ("body" ∈ head.paramNames ↔ h.body ≠ [] ∨ "body" ∈ h.names) ∧
        let declared := h.bodyNames ++ h.queryNames ++ h.headerNames ++ h.pathParams
        h.generate.findings.filterMap Finding.missing? =
          if ∀ n ∈ declared, n ∈ s.params then [] else [(s.name, s.lacking declared)]) ∧
    ∀ items, k.generate.value = some items →
      ∃ s head body, Signature.ofSource? k.source = some s ∧
        functions items = [(head, body)] ∧
        (∃ before lead first, before ++ [lead ++ callWith s.name first k.passed] <+:
          textsOf body ∧
          first.isSome = k.takesInput ∧
          ∀ x ∈ first, ∃ value, x ++ " = " ++ value ∈ before) ∧
        (∀ n, n ∈ k.passed.map (·.1) ↔ n ∈ k.names) ∧
        (∀ p ∈ k.passed, p.2.reads ∈ head.paramNames) ∧
        let declared := k.pathParams ++ k.queryNames ++ k.headerNames
        k.generate.findings.filterMap Finding.missing? =
          if ∀ n ∈ declared, n ∈ s.params then []
          else [(s.name, s.lacking declared)] := by
  constructor
  · intro items hi
    obtain ⟨s, hs, hn, -⟩ := h.exists_of_generate hi
    obtain ⟨s', hs', head, hp, hf⟩ := h.functions_of_generate hi
    cases hs.symm.trans hs'
    -- parameters with a default are written last, which moves their names and loses none
    have hmem {n : String} : n ∈ head.paramNames ↔
        n ∈ (h.parameters s).map Param.name := by
      rw [head.paramNames_perm.mem_iff, hp]
    refine ⟨s, head, h.handlerBody s, hs, hf, ?_, fun n => h.mem_map_passed, ?_,
      ?_, ?_, ?_, ?_⟩
    · rw [← h.call_eq_callWith]
      exact h.call_mem_texts s
    · intro n hn
      exact h.mem_passed.2 (.inl ⟨hn, rfl⟩)
    · intro p hk
      exact hmem.2 (h.reads_mem_parameters s hk)
    · intro hb
      rw [hp, Http.Endpoint.parameters, if_neg (by simpa using hb)]
      simp
    · rw [hmem, h.mem_map_parameters, or_comm]
      simp
    · rw [hn]
      exact s.missing?_noteMissing _
  · intro items hi
    obtain ⟨s, hs, hn, -⟩ := k.exists_of_generate hi
    obtain ⟨s', hs', head, hp, hf⟩ := k.functions_of_generate hi
    cases hs.symm.trans hs'
    have hmem {n : String} : n ∈ head.paramNames ↔ n ∈ k.parameters.map Param.name := by
      rw [head.paramNames_perm.mem_iff, hp]
    refine ⟨s, head, k.handlerBody s, hs, hf, ?_, fun n => k.mem_map_passed, ?_, ?_⟩
    · obtain ⟨before, lead, first, hc⟩ := k.exists_call_prefix s
      rw [k.call_eq_callWith] at hc
      exact ⟨before, lead, first, hc⟩
    · intro p hk
      exact hmem.2 (k.reads_mem_parameters hk)
    · rw [hn, k.missing?_check, Socket.Endpoint.boundNames, s.noteMissing_fresh]
      exact s.missing?_noteMissing _

/-- A function without parameters, behind a route with a query and behind
a socket in a room. -/
theorem names_agree_no_parameters :
    let source := "def f():\n    return 1"
    let h : Http.Endpoint :=
      { path := "/x", query := [.required "limit" "int"], headers := [], verb := .get,
        body := [], resp := [],
        source := source }
    let k : Socket.Endpoint :=
      { path := "/x/\x7broom_id\x7d", query := [], headers := [], mode := .event,
        message := [],
        validate := false, source := source }
    (∃ items, h.generate.value = some items ∧
      ∃ f ∈ functions items, "limit" ∈ f.1.paramNames ∧
      h.generate.findings.filterMap Finding.missing? = [("f", ["limit"])]) ∧
    ∃ items, k.generate.value = some items ∧
      ∃ f ∈ functions items, "room_id" ∈ f.1.paramNames ∧
      k.generate.findings.filterMap Finding.missing? = [("f", ["room_id"])] := by
  intro source h k
  have hs : Signature.ofSource? source = some ⟨"f", [], false, 0, 0⟩ := by decide +kernel
  have hh : ∃ items, h.generate.value = some items := by
    rw [Http.Endpoint.generate, show h.source = source from rfl, hs]
    exact ⟨_, rfl⟩
  have hk : ∃ items, k.generate.value = some items := by
    rw [Socket.Endpoint.generate, show k.source = source from rfl, hs]
    exact ⟨_, rfl⟩
  obtain ⟨items, hi⟩ := hh
  obtain ⟨items', hi'⟩ := hk
  obtain ⟨s, head, body, hs₁, hf, -, -, -, hr, -, -, hm⟩ := (names_agree h k).1 items hi
  obtain ⟨s', head', body', hs₂, hf', -, -, hr', hm'⟩ := (names_agree h k).2 items' hi'
  cases hs₁.symm.trans hs
  cases hs₂.symm.trans hs
  refine ⟨⟨items, hi, _, by rw [hf]; exact List.mem_cons_self, ?_, ?_⟩,
    items', hi', _, by rw [hf']; exact List.mem_cons_self, ?_, ?_⟩
  · exact hr ("limit", .variable "limit") (by decide +kernel)
  · rw [hm]
    decide +kernel
  · exact hr' ("room_id", .variable "room_id") (by decide +kernel)
  · rw [hm']
    decide +kernel

/-- A query that declares `body` gives the handler a parameter of that name,
and there is no body. -/
theorem body_parameter_from_query :
    let h : Http.Endpoint :=
      { path := "/x", query := [.required "body" "str"], headers := [], verb := .get,
        body := [], resp := [],
        source := "def f(body):\n    return body" }
    h.body = [] ∧ ∃ f ∈ (h.generate.value.map functions).getD [],
      "body" ∈ f.1.paramNames := by
  decide +kernel

end NotebookService
