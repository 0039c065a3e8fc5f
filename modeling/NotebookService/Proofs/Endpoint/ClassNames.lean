/-
# `NotebookService.Proofs.Endpoint.ClassNames` — when classes have names that Python takes

The classes of an endpoint are named after its function: the words of the function's
name, capitalised and joined, and behind them a word for what the class describes.  The
joining takes out every underscore, also those that the name begins with, and what
stands behind these comes first.  That may be a digit.  `_1` is an identifier and
`1RequestBody` is none, and a module with such a class is refused as a whole.

There is no other case (`class_names_valid_iff`).  Capitals, digits further in and names
of nothing but underscores do no harm, and no class is called like a word of the
language, since none of these ends in the word for a class.
-/
import NotebookService.Proofs.Endpoint.Names
import NotebookService.Proofs.Text.Ascii

namespace NotebookService

open NotebookService.Code NotebookService.Text

namespace Code

variable {c d : Char} {s p : List Char} {name w : String}

/-! ## Identifiers -/

/-- The words that Python keeps for itself. -/
def reservedWords : List String :=
  ["False", "None", "True", "and", "as", "assert", "async", "await", "break", "class",
    "continue", "def", "del", "elif",
    "else", "except", "finally", "for", "from", "global", "if", "import", "in", "is",
    "lambda", "nonlocal", "not", "or",
    "pass", "raise", "return", "try", "while", "with", "yield"]

/-- A word of ASCII letters, digits and underscores that does not begin with a digit. -/
structure IsPlainWord (s : List Char) : Prop where
  ne_nil : s ≠ []
  chars : ∀ c ∈ s, c.isAlphanum = true ∨ c = '_'
  start : s.head?.any Char.isDigit = false

instance (s : List Char) : Decidable (IsPlainWord s) :=
  -- a text is gone through by `List.all`, since there is also an instance that goes
  -- through all characters there are
  decidable_of_iff (s.isEmpty = false ∧ (s.all fun c => c.isAlphanum || c == '_') = true ∧
      s.head?.any Char.isDigit = false) <| by
    rw [List.isEmpty_eq_false_iff, List.all_eq_true]
    simp only [Bool.or_eq_true, beq_iff_eq]
    exact ⟨fun ⟨hn, hc, hs⟩ => ⟨hn, hc, hs⟩, fun h => ⟨h.ne_nil, h.chars, h.start⟩⟩

/-- A name that can be given to a class: such a word that is not reserved. -/
structure IsIdentifier (name : String) : Prop where
  word : IsPlainWord name.toList
  free : name ∉ reservedWords

instance (name : String) : Decidable (IsIdentifier name) :=
  decidable_of_iff (IsPlainWord name.toList ∧ name ∉ reservedWords)
    ⟨fun ⟨hw, hf⟩ => ⟨hw, hf⟩, fun h => ⟨h.word, h.free⟩⟩

/-- What stands behind the underscores at the beginning begins with a digit. -/
def digitLeads (s : List Char) : Bool := (s.dropWhile (· = '_')).head?.any Char.isDigit

/-! ## Capitalised words -/

/-- The words of a name, capitalised and joined. -/
def joinedWords (s : List Char) : List Char := (splitUnderscores s).flatMap capitalised

theorem toList_className (name : String) :
    (className name).toList = joinedWords name.toList := by
  rw [className, String.toList_ofList, joinedWords]

theorem exists_splitUnderscores_eq (s : List Char) :
    ∃ p ps, splitUnderscores s = p :: ps := by
  cases s with
  | nil => exact ⟨_, _, rfl⟩
  | cons c s =>
      rw [splitUnderscores]
      split
      · exact ⟨_, _, rfl⟩
      · split
        · exact ⟨_, _, rfl⟩
        · exact ⟨_, _, rfl⟩

theorem splitUnderscores_underscore (s : List Char) :
    splitUnderscores ('_' :: s) = [] :: splitUnderscores s := by
  rw [splitUnderscores, if_pos rfl]

theorem splitUnderscores_cons (hc : c ≠ '_') {ps : List (List Char)}
    (hs : splitUnderscores s = p :: ps) :
    splitUnderscores (c :: s) = (c :: p) :: ps := by
  rw [splitUnderscores, if_neg hc, hs]

theorem joinedWords_dropWhile (s : List Char) :
    joinedWords (s.dropWhile (· = '_')) = joinedWords s := by
  induction s with
  | nil => rfl
  | cons c s ih =>
      by_cases hc : c = '_'
      · rw [List.dropWhile_cons_of_pos (by simp [hc]), ih, hc, joinedWords, joinedWords,
          splitUnderscores_underscore]
        rfl
      · rw [List.dropWhile_cons_of_neg (by simp [hc])]

theorem exists_joinedWords_cons (hc : c.isAlphanum = true) (hu : c ≠ '_')
    (s : List Char) :
    ∃ t, joinedWords (c :: s) = c.toUpper :: t := by
  obtain ⟨p, ps, hs⟩ := exists_splitUnderscores_eq s
  refine ⟨lower p ++ ps.flatMap capitalised, ?_⟩
  rw [joinedWords, splitUnderscores_cons hu hs, List.flatMap_cons, capitalised,
    upperOf_of_isAlphanum hc]
  rfl

theorem mem_of_mem_splitUnderscores (hp : p ∈ splitUnderscores s) (hc : c ∈ p) :
    c ∈ s ∧ c ≠ '_' := by
  induction s generalizing p with
  | nil =>
      rw [splitUnderscores, List.mem_singleton] at hp
      rw [hp] at hc
      cases hc
  | cons d s ih =>
      have htail : ∀ q ∈ splitUnderscores s, c ∈ q → c ∈ d :: s ∧ c ≠ '_' := by
        intro q hq hm
        exact ⟨List.mem_cons_of_mem _ (ih hq hm).1, (ih hq hm).2⟩
      by_cases hd : d = '_'
      · rw [hd, splitUnderscores_underscore] at hp
        rcases List.mem_cons.1 hp with rfl | hp
        · cases hc
        · exact htail p hp hc
      · obtain ⟨q, qs, hs⟩ := exists_splitUnderscores_eq s
        rw [splitUnderscores_cons hd hs] at hp
        rw [hs] at htail
        rcases List.mem_cons.1 hp with rfl | hp
        · rcases List.mem_cons.1 hc with rfl | hc
          · exact ⟨List.mem_cons_self, hd⟩
          · exact htail q List.mem_cons_self hc
        · exact htail p (List.mem_cons_of_mem _ hp) hc

theorem isAlphanum_of_mem_capitalised (hp : ∀ c ∈ p, c.isAlphanum = true)
    (hd : d ∈ capitalised p) :
    d.isAlphanum = true := by
  cases p with
  | nil => cases hd
  | cons c p =>
      rw [capitalised, upperOf_of_isAlphanum (hp c List.mem_cons_self),
        List.singleton_append] at hd
      rcases List.mem_cons.1 hd with rfl | hd
      · exact isAlphanum_toUpper (hp c List.mem_cons_self)
      · obtain ⟨e, he, hd⟩ := List.mem_flatMap.1 hd
        have ha := hp e (List.mem_cons_of_mem _ he)
        rw [lowerOf_of_isAlphanum ha, List.mem_singleton] at hd
        rw [hd]
        exact isAlphanum_toLower ha

theorem isAlphanum_of_mem_joinedWords (hs : ∀ c ∈ s, c.isAlphanum = true ∨ c = '_')
    (hd : d ∈ joinedWords s) :
    d.isAlphanum = true := by
  obtain ⟨p, hp, hd⟩ := List.mem_flatMap.1 hd
  refine isAlphanum_of_mem_capitalised ?_ hd
  intro c hc
  obtain ⟨hm, hu⟩ := mem_of_mem_splitUnderscores hp hc
  exact (hs c hm).resolve_right hu

/-- The first character is the one behind the underscores, and raising it makes no digit
and no letter of it. -/
theorem any_isDigit_joinedWords (hs : ∀ c ∈ s, c.isAlphanum = true ∨ c = '_') :
    (joinedWords s).head?.any Char.isDigit = digitLeads s := by
  rw [digitLeads, ← joinedWords_dropWhile]
  cases h : s.dropWhile (· = '_') with
  | nil => rfl
  | cons c t =>
      have hu : c ≠ '_' := by
        intro hu
        have hh := List.head_dropWhile_not (fun c => decide (c = '_'))
            (l := s) (by simp [h])
        simp [h, hu] at hh
      have hm : c ∈ s := (List.dropWhile_sublist _).subset (h ▸ List.mem_cons_self)
      obtain ⟨u, hc⟩ := exists_joinedWords_cons ((hs c hm).resolve_right hu) hu t
      rw [hc, List.head?_cons, List.head?_cons, Option.any_some, Option.any_some,
        isDigit_toUpper]

/-! ## Class names -/

/-- The words for what a class describes. -/
def classWords : List String := ["RequestBody", "ResponseModel", "Message"]

theorem isPlainWord_classWords : ∀ w ∈ classWords, IsPlainWord w.toList := by decide

theorem reservedWords_suffix :
    ∀ w ∈ classWords, ∀ r ∈ reservedWords, ¬ w.toList <:+ r.toList := by decide

theorem className_append_not_mem (name : String) (hw : w ∈ classWords) :
    className name ++ w ∉ reservedWords := by
  intro hr
  refine reservedWords_suffix w hw _ hr ?_
  rw [String.toList_append]
  exact List.suffix_append _ _

theorem IsPlainWord.isIdentifier_className_iff (h : IsPlainWord name.toList)
    (hw : w ∈ classWords) :
    IsIdentifier (className name ++ w) ↔ digitLeads name.toList = false := by
  have hplain := isPlainWord_classWords w hw
  have htext : (className name ++ w).toList = joinedWords name.toList ++ w.toList := by
    rw [String.toList_append, toList_className]
  have hstart : (joinedWords name.toList ++ w.toList).head?.any Char.isDigit =
      digitLeads name.toList := by
    rw [← any_isDigit_joinedWords h.chars]
    cases joinedWords name.toList with
    | nil => exact hplain.start
    | cons c t => rfl
  constructor
  · intro hi
    rw [← hstart, ← htext]
    exact hi.word.start
  · intro hd
    refine ⟨?_, className_append_not_mem name hw⟩
    rw [htext]
    refine ⟨?_, ?_, hstart.trans hd⟩
    · exact List.append_ne_nil_of_right_ne_nil _ hplain.ne_nil
    · intro c hc
      rcases List.mem_append.1 hc with hc | hc
      · exact .inl (isAlphanum_of_mem_joinedWords h.chars hc)
      · exact hplain.chars c hc

/-- The name of the class that a statement defines. -/
def Statement.class? : Statement → Option String
  | .model name _ => some name
  | _ => none

/-- The names of the classes that generated code defines. -/
def classes (items : List Statement) : List String := items.filterMap Statement.class?

end Code

/-- Where the members of a list all answer alike, one answer is enough, or
there is none to ask. -/
theorem forall_mem_iff {cs : List String} {P : String → Prop} {Q : Prop}
    (h : ∀ c ∈ cs, (P c ↔ Q)) :
    (∀ c ∈ cs, P c) ↔ cs = [] ∨ Q := by
  cases cs with
  | nil => simp
  | cons c cs =>
      constructor
      · intro hp
        exact .inr ((h c List.mem_cons_self).1 (hp c List.mem_cons_self))
      · rintro (hn | hq) d hd
        · cases hn
        · exact (h d hd).2 hq

/-! ## Endpoints -/

theorem Http.Endpoint.exists_generate (e : Http.Endpoint) {s : Signature}
    (hs : Signature.ofSource? e.source = some s) :
    ∃ items, e.generate.value = some items ∧
      (∀ c ∈ classes items, c = requestModel s ∨ c = responseModel s) ∧
      (classes items = [] ↔ e.body = [] ∧ e.resp = []) := by
  refine ⟨e.models s ++ [e.handler s, .verbatim e.source], ?_, ?_⟩
  · rw [generate, hs]
    rfl
  · have hm : classes (e.models s ++ [e.handler s, .verbatim e.source]) =
        classes (e.models s) := by
      rw [classes, List.filterMap_append]
      exact List.append_nil _
    rw [hm, models]
    cases e.body <;> cases e.resp <;> simp [classes, Statement.class?]

theorem Socket.Endpoint.exists_generate (e : Socket.Endpoint) {s : Signature}
    (hs : Signature.ofSource? e.source = some s) :
    ∃ items, e.generate.value = some items ∧ (∀ c ∈ classes items, c = messageModel s) ∧
      (classes items = [] ↔ e.validates = false) := by
  refine ⟨(if e.validates then [.model (messageModel s) e.message] else []) ++
    [e.handler s, .verbatim e.source], ?_, ?_⟩
  · rw [generate, hs]
    rfl
  · cases e.validates <;> simp [classes, Statement.class?, handler]

/-- The classes of an endpoint have the names of identifiers unless the function's name
goes on with a digit behind the underscores that it begins with.  Then none of them has,
and the code is right only if it defines no class. -/
theorem class_names_valid_iff {s : Signature} (h : IsPlainWord s.name.toList) :
    (∀ c ∈ [Http.Endpoint.requestModel s, Http.Endpoint.responseModel s,
        Socket.Endpoint.messageModel s],
      IsIdentifier c ↔ digitLeads s.name.toList = false) ∧
    (∀ e : Http.Endpoint, Signature.ofSource? e.source = some s →
      ∃ items, e.generate.value = some items ∧
        ((∀ c ∈ classes items, IsIdentifier c) ↔ (e.body = [] ∧ e.resp = []) ∨
          digitLeads s.name.toList = false)) ∧
    ∀ e : Socket.Endpoint, Signature.ofSource? e.source = some s →
      ∃ items, e.generate.value = some items ∧
        ((∀ c ∈ classes items, IsIdentifier c) ↔ e.validates = false ∨
          digitLeads s.name.toList = false) := by
  have hrequest : IsIdentifier (Http.Endpoint.requestModel s) ↔
      digitLeads s.name.toList = false :=
    h.isIdentifier_className_iff (by decide)
  have hresponse : IsIdentifier (Http.Endpoint.responseModel s) ↔
      digitLeads s.name.toList = false :=
    h.isIdentifier_className_iff (by decide)
  have hmessage : IsIdentifier (Socket.Endpoint.messageModel s) ↔
      digitLeads s.name.toList = false :=
    h.isIdentifier_className_iff (by decide)
  refine ⟨?_, ?_, ?_⟩
  · intro c hc
    simp only [List.mem_cons, List.not_mem_nil, or_false] at hc
    rcases hc with rfl | rfl | rfl
    · exact hrequest
    · exact hresponse
    · exact hmessage
  · intro e hs
    obtain ⟨items, hg, hc, hnone⟩ := e.exists_generate hs
    refine ⟨items, hg, ?_⟩
    rw [← hnone]
    refine forall_mem_iff ?_
    intro c hm
    rcases hc c hm with rfl | rfl
    · exact hrequest
    · exact hresponse
  · intro e hs
    obtain ⟨items, hg, hc, hnone⟩ := e.exists_generate hs
    refine ⟨items, hg, ?_⟩
    rw [← hnone]
    refine forall_mem_iff ?_
    intro c hm
    rw [hc c hm]
    exact hmessage

/-- A private function whose name has a digit further in. -/
theorem class_names_valid_iff_private :
    let s : Signature := ⟨"_v2_items", ["page"], false, 0, 0⟩
    Signature.ofSource? "def _v2_items(page):\n    return page" = some s ∧
      IsPlainWord s.name.toList ∧
      Http.Endpoint.responseModel s = "V2ItemsResponseModel" ∧
      IsIdentifier (Http.Endpoint.responseModel s) := by
  intro s
  have h : IsPlainWord s.name.toList := by decide
  refine ⟨by decide +kernel, h, by decide +kernel, ?_⟩
  exact ((class_names_valid_iff h).1 _ (by simp)).2 (by decide)

/-- A function can be called `_1`, and a class that describes its request is then
called `1RequestBody`. -/
theorem class_name_begins_with_digit :
    let e : Http.Endpoint :=
      { path := "/x", query := [], headers := [], verb := .post,
        body := [⟨"a", "int", false⟩], resp := [],
        source := "def _1(a):\n    return a" }
    (∃ s, Signature.ofSource? e.source = some s ∧ IsIdentifier s.name) ∧
      e.generate.value.map classes = some ["1RequestBody"] ∧
      ¬ IsIdentifier "1RequestBody" := by
  intro e
  refine ⟨⟨⟨"_1", ["a"], false, 0, 0⟩, by decide +kernel, by decide⟩, by
      decide +kernel, by decide⟩

end NotebookService
