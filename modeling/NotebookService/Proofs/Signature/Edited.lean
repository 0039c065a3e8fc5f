/-
# `NotebookService.Proofs.Signature.Edited` — sources with more lines in them

The scan goes through a source once and carries one thing with it, the triple-quoted
text that is open.  So lines that leave nothing open and define nothing are passed over
wherever the scan is in code, and the definitions further down only get other numbers
(`outermost?_insert`).  The function is then read from the same lines as before, unless
the new ones stand in its parameter list.
-/
import NotebookService.Proofs.Signature.Reader
import NotebookService.Proofs.Text.Lines

namespace NotebookService.Signature

open NotebookService.Text

variable {ls ms a b block : List (List Char)} {l s t w : List Char} {opened : Option Char}
  {d : Nat × Nat}

/-! ## The scan -/

/-- The triple-quoted text that is open behind lines. -/
def openBehind (opened : Option Char) (ls : List (List Char)) : Option Char :=
  ls.foldl openAfter opened

theorem definitionLines_append (number : Nat) (opened : Option Char)
    (ls ms : List (List Char)) :
    definitionLines number opened (ls ++ ms) =
      definitionLines number opened ls ++ definitionLines (number + ls.length)
      (openBehind opened ls) ms := by
  induction ls generalizing number opened with
  | nil => rfl
  | cons l ls ih =>
      have hlength : number + 1 + ls.length = number + (l :: ls).length := by
        rw [List.length_cons]
        omega
      rw [List.cons_append, definitionLines, ih, hlength, definitionLines]
      split <;> rfl

theorem definitionLines_add (number k : Nat) (opened : Option Char)
    (ls : List (List Char)) :
    definitionLines (number + k) opened ls =
      (definitionLines number opened ls).map fun d => (d.1 + k, d.2) := by
  induction ls generalizing number opened with
  | nil => rfl
  | cons l ls ih =>
      have hnumber : number + k + 1 = number + 1 + k := by omega
      rw [definitionLines, hnumber, ih, definitionLines]
      split <;> rfl

theorem lt_of_mem_definitionLines {number : Nat}
    (h : d ∈ definitionLines number opened ls) :
    number ≤ d.1 ∧ d.1 < number + ls.length := by
  obtain ⟨n, indent⟩ := d
  obtain ⟨i, l, hi, hl, -⟩ := exists_of_mem_definitionLines h
  obtain ⟨hlt, -⟩ := List.getElem?_eq_some_iff.1 hl
  omega

/-- The choice looks at the indentation only. -/
theorem outermost?_map {f : Nat × Nat → Nat × Nat} (hf : ∀ d, (f d).2 = d.2)
    (ds : List (Nat × Nat)) :
    outermost? (ds.map f) = (outermost? ds).map f := by
  induction ds with
  | nil => rfl
  | cons d ds ih =>
      rw [List.map_cons, outermost?, ih, outermost?]
      cases outermost? ds with
      | none => rfl
      | some e =>
          simp only [Option.map_some, hf]
          split <;> rfl

/-! ## Lines that are passed over -/

/-- Lines without a definition, behind which as in front of them no
triple-quoted text is open. -/
structure Silent (block : List (List Char)) : Prop where
  closed : openBehind none block = none
  undefining : ∀ number, definitionLines number none block = []

/-- The number of a line when `k` lines come in front of line `i`. -/
def pushed (i k line : Nat) : Nat := if i ≤ line then line + k else line

theorem definitionLines_insert (ha : openBehind none a = none) (hblock : Silent block)
    (b : List (List Char)) :
    definitionLines 0 none (a ++ (block ++ b)) =
      (definitionLines 0 none (a ++ b)).map fun d =>
        (pushed a.length block.length d.1, d.2) := by
  rw [definitionLines_append, definitionLines_append 0 none a b, ha,
    definitionLines_append, hblock.closed, hblock.undefining, List.nil_append,
    definitionLines_add, List.map_append]
  congr 1
  · refine ((List.map_congr_left fun d hd => ?_).trans (List.map_id' _)).symm
    obtain ⟨-, hlt⟩ := lt_of_mem_definitionLines hd
    rw [pushed, if_neg (by omega)]
  · refine List.map_congr_left fun d hd => ?_
    obtain ⟨hle, -⟩ := lt_of_mem_definitionLines hd
    rw [pushed, if_pos (by omega)]

theorem outermost?_insert (ha : openBehind none a = none) (hblock : Silent block)
    (b : List (List Char)) :
    outermost? (definitionLines 0 none (a ++ (block ++ b))) =
      (outermost? (definitionLines 0 none (a ++ b))).map fun d =>
        (pushed a.length block.length d.1, d.2) := by
  rw [definitionLines_insert ha hblock]
  exact outermost?_map (f := fun d => (pushed a.length block.length d.1, d.2))
    (fun _ => rfl) _

/-! ## Reading the chosen definition -/

/-- The name behind `def`, and the text behind the parenthesis that opens
the parameter list. -/
def header? (rest : List Char) : Option (List Char × List Char) :=
  let rest := trimStart rest
  let name := rest.takeWhile isWordChar
  if name.isEmpty then none
  else (after? "(" (trimStart (rest.dropWhile isWordChar))).map fun behind =>
    (name, behind)

/-- The signature of a definition with the given header, with the lines that follow. -/
def signature? (isAsync : Bool) (d : Nat × Nat) (following : List (List Char))
    (header : List Char × List Char) :
    Option Signature :=
  ((Place.inside .top).read? (unlines (header.2 :: following))).map fun text =>
    ⟨String.ofList header.1, parameterNames text, isAsync, d.1, d.2⟩

theorem read?_eq (isAsync : Bool) (d : Nat × Nat) (rest : List Char)
    (following : List (List Char)) :
    read? isAsync d.1 d.2 rest following =
      (header? rest).bind (signature? isAsync d following) := by
  unfold read? header?
  dsimp only
  split
  · rfl
  · cases after? "(" (trimStart ((trimStart rest).dropWhile isWordChar)) with
    | none => rfl
    | some behind =>
        simp only [Option.bind_eq_bind, Option.bind_some, Option.map_some,
          (parameterText?_eq_read? .top _).1, signature?]
        cases (Place.inside .top).read? (unlines (behind :: following)) <;> rfl

/-- What is read of the definition that the scan has chosen. -/
def readAt? (ls : List (List Char)) (d : Nat × Nat) : Option Signature :=
  (definition? (trimStart (ls.getD d.1 []))).bind fun found =>
    (header? found.2).bind (signature? found.1 d (ls.drop (d.1 + 1)))

theorem ofLines?_eq (ls : List (List Char)) :
    ofLines? ls = (outermost? (definitionLines 0 none ls)).bind (readAt? ls) := by
  unfold ofLines? readAt?
  simp only [Option.bind_eq_bind, read?_eq]

/-- Two lines with the same definition on them are read alike, if the lists
that begin there are. -/
theorem readAt?_eq_map {e : Nat × Nat} {f : Signature → Signature}
    (hline : ms.getD e.1 [] = ls.getD d.1 [])
    (h : ∀ found header, definition? (trimStart (ls.getD d.1 [])) = some found →
      header? found.2 = some header →
        signature? found.1 e (ms.drop (e.1 + 1)) header =
          (signature? found.1 d (ls.drop (d.1 + 1)) header).map f) :
    readAt? ms e = (readAt? ls d).map f := by
  rw [readAt?, readAt?, hline]
  cases hfound : definition? (trimStart (ls.getD d.1 [])) with
  | none => rfl
  | some found =>
      rw [Option.bind_some, Option.bind_some]
      cases hheader : header? found.2 with
      | none => rfl
      | some header => exact h found header hfound hheader

/-- The definition that is read, with what stands behind its `def` and with its header. -/
structure Chosen (ls : List (List Char)) (d : Nat × Nat) (found : Bool × List Char)
    (header : List Char × List Char) :
    Prop where
  outermost : outermost? (definitionLines 0 none ls) = some d
  definition : definition? (trimStart (ls.getD d.1 [])) = some found
  header : header? found.2 = some header

/-- Where the reader of the function's parameter list stands in front of line `i`, if
the function begins above. -/
def listPlace? (ls : List (List Char)) (i : Nat) : Option Place :=
  (outermost? (definitionLines 0 none ls)).bind fun d =>
    (definition? (trimStart (ls.getD d.1 []))).bind fun found =>
      (header? found.2).bind fun header =>
        if d.1 < i then
          some ((Place.inside .top).after
            (unlines (header.2 :: (ls.take i).drop (d.1 + 1)) ++ ['\n']))
        else none

theorem Chosen.listPlace?_eq {found : Bool × List Char} {header : List Char × List Char}
    (h : Chosen ls d found header) {i : Nat} (hi : d.1 < i) :
    listPlace? ls i =
      some ((Place.inside .top).after (unlines (header.2 :: (ls.take i).drop (d.1 + 1)) ++
        ['\n'])) := by
  rw [listPlace?, h.outermost, Option.bind_some, h.definition, Option.bind_some, h.header,
    Option.bind_some, if_pos hi]

/-! ## Lines that come in -/

theorem head?_flatMap_feed {ls : List (List Char)} {c : Char}
    (h : c ∈ (ls.flatMap ('\n' :: ·)).head?) : c = '\n' := by
  cases ls with
  | nil => cases h
  | cons l ls => exact (Option.some_inj.1 h).symm

/-- A signature with its line pushed down. -/
def pushedDown (i k : Nat) (s : Signature) : Signature :=
  { s with line := pushed i k s.line }

theorem map_pushedDown_signature? (i k : Nat) (isAsync : Bool) (d : Nat × Nat)
    (following : List (List Char)) (header : List Char × List Char) :
    (signature? isAsync d following header).map (pushedDown i k) =
      signature? isAsync (pushed i k d.1, d.2) following header := by
  rw [signature?, signature?, Option.map_map]
  rfl

theorem drop_pushed (block b : List (List Char)) (h : a.length ≤ d.1) :
    (a ++ (block ++ b)).drop (pushed a.length block.length d.1) = (a ++ b).drop d.1 := by
  obtain ⟨k, hk⟩ := Nat.exists_eq_add_of_le h
  have hpushed : pushed a.length block.length d.1 = a.length + (block.length + k) := by
    rw [pushed, if_pos h, hk]
    omega
  rw [hpushed, hk, List.drop_length_add_append, List.drop_length_add_append,
    List.drop_length_add_append]

/-- Lines that the scan passes over change nothing but line numbers, if the list of a
function that begins above them is read as before. -/
theorem ofLines?_insert (ha : openBehind none a = none) (hblock : Silent block)
    (b : List (List Char))
    (hlist : ∀ d found header, Chosen (a ++ b) d found header → d.1 < a.length →
      signature? found.1 d (a.drop (d.1 + 1) ++ (block ++ b)) header =
        signature? found.1 d (a.drop (d.1 + 1) ++ b) header) :
    ofLines? (a ++ (block ++ b)) =
      (ofLines? (a ++ b)).map (pushedDown a.length block.length) := by
  rw [ofLines?_eq, ofLines?_eq, outermost?_insert ha hblock]
  cases hd : outermost? (definitionLines 0 none (a ++ b)) with
  | none => rfl
  | some d =>
      rw [Option.map_some, Option.bind_some, Option.bind_some]
      by_cases hle : a.length ≤ d.1
      · have hdrop := drop_pushed block b hle
        refine readAt?_eq_map ?_ fun found header _ _ => ?_
        · dsimp only
          rw [List.getD_eq_getElem?_getD, List.getD_eq_getElem?_getD, ← List.head?_drop, ←
            List.head?_drop, hdrop]
        · rw [map_pushedDown_signature?, ← List.drop_drop, hdrop, List.drop_drop]
      · have hlt : d.1 < a.length := Nat.lt_of_not_le hle
        have hpushed : pushed a.length block.length d.1 = d.1 := if_neg hle
        have hdrop (c : List (List Char)) : (a ++ c).drop (d.1 + 1) =
            a.drop (d.1 + 1) ++ c :=
          List.drop_append_of_le_length hlt
        refine readAt?_eq_map ?_ fun found header hfound hheader => ?_
        · rw [hpushed, List.getD_eq_getElem?_getD, List.getD_eq_getElem?_getD,
            List.getElem?_append_left hlt, List.getElem?_append_left hlt]
        · rw [map_pushedDown_signature?, hpushed, hdrop, hdrop]
          exact hlist d found header ⟨hd, hfound, hheader⟩ hlt

/-! ## Docstrings -/

theorem holdsTriple_iff {mark : Char} :
    holdsTriple mark l = true ↔ [mark, mark, mark] <:+: l := by
  rw [holdsTriple, decide_eq_true_eq]
  fun_induction countTriple mark l with
  | case1 a b c s habc =>
      obtain ⟨rfl, rfl, rfl⟩ := habc
      exact iff_of_true (Nat.succ_ne_zero _) ⟨[], s, rfl⟩
  | case2 a b c s habc ih =>
      rw [ih]
      refine (List.infix_cons_iff.trans (or_iff_right ?_)).symm
      rintro ⟨t, ht⟩
      cases ht
      exact habc ⟨rfl, rfl, rfl⟩
  | case3 l hl =>
      refine iff_of_false (fun h => h rfl) fun h => ?_
      have hlength : 3 ≤ l.length := h.length_le
      obtain ⟨a, l, rfl⟩ := List.exists_cons_of_length_pos (by omega : 0 < l.length)
      rw [List.length_cons] at hlength
      obtain ⟨b, l, rfl⟩ := List.exists_cons_of_length_pos (by omega : 0 < l.length)
      rw [List.length_cons] at hlength
      obtain ⟨c, l, rfl⟩ := List.exists_cons_of_length_pos (by omega : 0 < l.length)
      exact hl a b c l rfl

/-- A triple-quoted text on lines of its own. -/
def docstring (inner : List (List Char)) : List (List Char) :=
  "\"\"\"".toList :: (inner ++ ["\"\"\"".toList])

theorem silent_inner {inner : List (List Char)}
    (h : ∀ l ∈ inner, ¬ "\"\"\"".toList <:+: l) :
    openBehind (some '"') inner = some '"' ∧
      ∀ number, definitionLines number (some '"') inner = [] := by
  induction inner with
  | nil => exact ⟨rfl, fun _ => rfl⟩
  | cons l inner ih =>
      obtain ⟨hl, hinner⟩ := List.forall_mem_cons.1 h
      have hopen : openAfter (some '"') l = some '"' := if_neg (mt holdsTriple_iff.1 hl)
      obtain ⟨hbehind, hlines⟩ := ih hinner
      constructor
      · rw [openBehind, List.foldl_cons, hopen]
        exact hbehind
      · intro number
        rw [definitionLines, hopen, hlines]
        rfl

theorem silent_docstring {inner : List (List Char)}
    (h : ∀ l ∈ inner, ¬ "\"\"\"".toList <:+: l) :
    Silent (docstring inner) := by
  have hfirst : openAfter none "\"\"\"".toList = some '"' := by decide
  have hlast : openAfter (some '"') "\"\"\"".toList = none := by decide
  have hcode : startsDefinition none "\"\"\"".toList = false := by decide
  obtain ⟨hbehind, hlines⟩ := silent_inner h
  constructor
  · rw [openBehind] at hbehind
    rw [docstring, openBehind, List.foldl_cons, hfirst, List.foldl_append, hbehind]
    exact hlast
  · intro number
    rw [docstring, definitionLines, hfirst, definitionLines_append, hlines,
      hbehind, hcode]
    rfl

theorem unlines_append (l : List Char) (ls ms : List (List Char)) :
    unlines (l :: (ls ++ ms)) = unlines (l :: ls) ++ ms.flatMap ('\n' :: ·) := by
  rw [unlines_cons, unlines_cons, List.flatMap_append, List.append_assoc]

/-- What is read of a list is its text, if it is closed in front of
the lines behind it. -/
theorem read?_of_step_feed {p : Place} (h : (p.after s).step '\n' = .behind)
    (t : List Char) :
    p.read? (s ++ t) = some (p.copied s) := by
  rw [Place.read?_append, (Place.step_eq_behind (by decide)).1 h, Place.read?_behind,
    Option.map_some, List.append_nil]

/-- A docstring between two lines changes nothing but line numbers, whatever definitions
are quoted in it, as long as no other triple-quoted text is open there and the place is
not in the function's own parameter list. -/
theorem docstring_defines_nothing {source edited : String} {i : Nat}
    {inner : List (List Char)} (hi : i ≤ (Text.lines source.toList).length)
    (hcode : openBehind none ((Text.lines source.toList).take i) = none)
    (hlist : ∀ p ∈ listPlace? (Text.lines source.toList) i, p = .behind)
    (hinner : ∀ l ∈ inner, ¬ "\"\"\"".toList <:+: l)
    (hlines : Text.lines edited.toList =
      (Text.lines source.toList).take i ++
        (docstring inner ++ (Text.lines source.toList).drop i)) :
    ofSource? edited = (ofSource? source).map (pushedDown i (inner.length + 2)) := by
  have hsource := List.take_append_drop i (Text.lines source.toList)
  have htake : ((Text.lines source.toList).take i).length = i := List.length_take_of_le hi
  have hblock : (docstring inner).length = inner.length + 2 := by simp [docstring]
  rw [ofSource?, hlines, ofLines?_insert hcode (silent_docstring hinner), hsource, htake,
    hblock, ofSource?]
  intro d found header hchosen hd
  rw [hsource] at hchosen
  rw [htake] at hd
  have hplace := hlist _ (hchosen.listPlace?_eq hd)
  rw [Place.after_append] at hplace
  rw [signature?, signature?, unlines_append, unlines_append, read?_of_step_feed hplace,
    read?_of_step_feed hplace]

/-- A definition further left is quoted above a function, and another one below
its parameter list. -/
theorem docstring_defines_nothing_quoted :
    let source := "if x:\n    def f(a,\n          b):\n        pass"
    let above :=
      "if x:\n\"\"\"\ndef g(c):\n\"\"\"\n    def f(a,\n          b):\n        pass"
    let below :=
      "if x:\n    def f(a,\n          b):\n\"\"\"\ndef g(c):\n\"\"\"\n        pass"
    ofSource? source = some ⟨"f", ["a", "b"], false, 1, 4⟩ ∧
      ofSource? above = (ofSource? source).map (pushedDown 1 3) ∧
      ofSource? below = (ofSource? source).map (pushedDown 3 3) := by
  intro source above below
  have hinner : ∀ l ∈ ["def g(c):".toList], ¬ "\"\"\"".toList <:+: l := by
    refine List.forall_mem_singleton.2 fun h => ?_
    exact absurd (holdsTriple_iff.2 h) (by decide)
  refine ⟨by decide +kernel, ?_, ?_⟩
  · exact @docstring_defines_nothing source above 1 ["def g(c):".toList]
      (by decide +kernel) (by decide +kernel)
      (by decide +kernel) hinner (by decide +kernel)
  · exact @docstring_defines_nothing source below 3 ["def g(c):".toList]
      (by decide +kernel) (by decide +kernel)
      (by decide +kernel) hinner (by decide +kernel)

end NotebookService.Signature
