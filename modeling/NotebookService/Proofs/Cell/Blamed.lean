/-
# `NotebookService.Proofs.Cell.Blamed` — the line of a cell that is blamed for a fault

A cell whose metadata cannot be read is left out, and the finding names a line of its
declaration.  The line is counted after the splitter has taken out those that hold
nothing but their comment marker.  So it is the number of the wrong line among the lines
that say something, and the line that its author sees is further down by one for each
bare marker above it.

`FaultyCell` is a cell of comment lines and a body with one wrong line below its
directive.  `FaultyCell.refused` says for all of them that they are left out, with this
finding and no other, and that the number is that of the line itself exactly if no bare
marker stands above it.
-/
import NotebookService.Proofs.Cell.Head
import NotebookService.Proofs.Cell.Outcome
import NotebookService.Proofs.Metadata.Blamed

namespace NotebookService

open NotebookService.Text NotebookService.Metadata

namespace Declaration

variable {m l t : List Char} {ls ts body : List (List Char)}

/-! ## Comment lines -/

def IsComment (l : List Char) : Prop := (trim l).head? = some '#'

/-- The text of a comment line. -/
def said (l : List Char) : List Char := commentText (trim l)

/-- Behind the marker of the line stands this text, after a margin.  A bare marker says
nothing and needs no margin. -/
def HasText (m l t : List Char) : Prop :=
  IsComment l ∧ (said l = [] ∧ t = [] ∨ said l = m ++ t ∧ t ≠ [])

/-- The texts that are not empty. -/
def spoken (ts : List (List Char)) : List (List Char) := ts.filter (· ≠ [])

@[simp] theorem spoken_nil : spoken [] = [] := rfl

theorem spoken_append (ts us : List (List Char)) :
    spoken (ts ++ us) = spoken ts ++ spoken us := List.filter_append ts us

theorem spoken_cons_of_ne (h : t ≠ []) (ts : List (List Char)) :
    spoken (t :: ts) = t :: spoken ts :=
  List.filter_cons_of_pos (by simpa using h)

theorem length_spoken_eq_iff : (spoken ts).length = ts.length ↔ [] ∉ ts := by
  rw [spoken, List.length_filter_eq_length_iff]
  constructor
  · intro h hm
    simpa using h [] hm
  · intro h t ht
    simpa using fun he : t = [] => h (he ▸ ht)

theorem splitDeclaring_of_isComment (h : ∀ l ∈ ls, IsComment l) (hb : StartsBody body) :
    splitDeclaring (ls ++ body) = (ls.map said, body) := by
  induction ls with
  | nil => exact splitDeclaring_body hb
  | cons l ls ih =>
      obtain ⟨hl, hls⟩ := List.forall_mem_cons.1 h
      obtain ⟨x, hx⟩ := List.head?_eq_some_iff.1 hl
      have hnone : openingTriple? (trim l) = none := by rw [hx, openingTriple?_hash]
      rw [List.cons_append, splitDeclaring, hnone, hl, if_pos rfl, ih hls]
      rfl

theorem trimEnd_said (l : List Char) : trimEnd (said l) = said l := by
  rw [said, commentText]
  split <;> exact trimEnd_trimEnd

/-- What the comments say is the margin and a text each, and nothing for a bare marker. -/
theorem filter_map_said (h : List.Forall₂ (HasText m) ls ts) :
    (ls.map said).filter (fun l => !allBlank l) = (spoken ts).map (m ++ ·) := by
  induction h with
  | nil => rfl
  | @cons l t ls ts hl _ ih =>
      rcases hl.2 with ⟨hs, rfl⟩ | ⟨hs, ht⟩
      · rw [List.map_cons, hs]
        exact ih
      · have hblank : ¬ allBlank (said l) = true := by
          rw [← trimEnd_eq_nil, trimEnd_said, hs]
          exact List.append_ne_nil_of_right_ne_nil m ht
        rw [List.map_cons, List.filter_cons_of_pos (by simpa using hblank),
          spoken_cons_of_ne ht, List.map_cons, ih, hs]

theorem isComment_of_hasText (h : List.Forall₂ (HasText m) ls ts) :
    ∀ l ∈ ls, IsComment l := by
  induction h with
  | nil => exact fun l hl => absurd hl List.not_mem_nil
  | cons hl _ ih => exact List.forall_mem_cons.2 ⟨hl.1, ih⟩

theorem least_indentation (hm : allBlank m = true) (ht : t ∈ ts) (hu : Unindented t) :
    least ((ts.map (m ++ ·)).map indentation) = width m := by
  have hmem : m ++ t ∈ ts.map (m ++ ·) := List.mem_map_of_mem ht
  have hzero : indentation t = 0 := by
    cases t with
    | nil => rfl
    | cons c t => exact indentation_cons_of_not (hu c rfl)
  refine Nat.le_antisymm ?_ ?_
  · have hle := least_le (List.mem_map_of_mem (f := indentation) hmem)
    rwa [indentation_append_of_allBlank hm, hzero, Nat.add_zero] at hle
  · have hleast := least_mem
        (List.ne_nil_of_mem (List.mem_map_of_mem (f := indentation) hmem))
    obtain ⟨l, hl, he⟩ := List.mem_map.1 hleast
    obtain ⟨u, -, rfl⟩ := List.mem_map.1 hl
    rw [← he, indentation_append_of_allBlank hm]
    exact Nat.le_add_right _ _

theorem split?_comments {source : String} (hm : allBlank m = true) (hb : StartsBody body)
    (hsource : (Text.lines source.toList).dropWhile allBlank = ls ++ body)
    (h : List.Forall₂ (HasText m) ls ts) (ht : t ∈ ts) (hne : t ≠ [])
    (hu : Unindented t) :
    split? source = some ⟨(spoken ts).map String.ofList, body.map String.ofList⟩ := by
  have hdeclares : Declares source ((spoken ts).map (m ++ ·)) body :=
    ⟨_, hsource ▸ splitDeclaring_of_isComment (isComment_of_hasText h) hb,
      filter_map_said h⟩
  have hmem : t ∈ spoken ts := List.mem_filter.2 ⟨ht, by simpa using hne⟩
  have hcut : cut (width m) ∘ (m ++ ·) = id := funext (cut_width_append m)
  rw [hdeclares.split?_eq (by simpa using List.ne_nil_of_mem hmem),
    least_indentation hm hmem hu, List.map_map, List.map_map, Function.comp_assoc, hcut,
    Function.comp_id]

end Declaration

namespace CellSpec

open Declaration

/-! ## Directives -/

/-- A verb and a path. -/
def IsHead (text : String) : Prop :=
  ∃ verb, Http.Verb.ofWord? (splitHead text).1 = some verb ∧ (splitHead text).2 ≠ ""

/-- The lines in front of the metadata: the line of the directive, and for an HTTP cell
without a head in this line the next one that says something. -/
inductive Leads : List (List Char) → Prop where
  | http {first : List Char} {head : String}
      (h : Directive.detect? (String.ofList first) = some (.http, head))
      (hh : IsHead head) : Leads [first]
  | httpBelow {first head : List Char} {gap : List (List Char)}
      (h : Directive.detect? (String.ofList first) = some (.http, ""))
      (hg : ∀ l ∈ gap, l = [])
      (hh : IsHead (String.ofList head)) : Leads (first :: (gap ++ [head]))
  | socket {first : List Char} {path : String}
      (h : Directive.detect? (String.ofList first) = some (.socket, path))
      (hp : path ≠ "") : Leads [first]
  | schedule {first entry : List Char}
      (h : Directive.detect? (String.ofList first) =
        some (.schedule, String.ofList entry))
      (he : Harmless entry) :
      Leads [first]

/-! ## Refused metadata -/

section

variable {rest path body : String} {lines : List String} {refusal : Refusal}

theorem readMetadata_of_error {n : Nat} (h : Metadata.read n lines = .error refusal) :
    readMetadata n lines = ⟨none, [.skipped refusal.cellError]⟩ := by
  rw [readMetadata, h]
  rfl

theorem ofHttp_of_error (hh : IsHead (httpHead rest lines).text)
    (h : Metadata.read (httpHead rest lines).firstLine (httpHead rest lines).metadata =
      .error refusal) :
    ofHttp rest lines body = ⟨none, [.skipped refusal.cellError]⟩ := by
  obtain ⟨verb, hverb, hpath⟩ := hh
  unfold ofHttp
  simp only [hverb, if_neg hpath, readMetadata_of_error h]
  rfl

theorem ofSocket_of_error (hp : path ≠ "") (h : Metadata.read 2 lines = .error refusal) :
    ofSocket path lines body = ⟨none, [.skipped refusal.cellError]⟩ := by
  rw [ofSocket, if_neg hp, readMetadata_of_error h]
  rfl

theorem ofSchedule_of_error
    (h : Metadata.read (if rest = "" then 2 else 1) (if rest = "" then lines
      else rest :: lines) = .error refusal) :
    ofSchedule rest lines body = ⟨none, [.skipped refusal.cellError]⟩ := by
  by_cases hr : rest = ""
  · rw [if_pos hr, if_pos hr] at h
    simp only [ofSchedule, if_pos hr, readMetadata_of_error h]
    rfl
  · rw [if_neg hr, if_neg hr] at h
    simp only [ofSchedule, if_neg hr, readMetadata_of_error h]
    rfl

end

theorem IsHead.ne_empty {text : String} (h : IsHead text) : text ≠ "" := by
  rintro rfl
  obtain ⟨verb, -, hpath⟩ := h
  exact hpath rfl

section

variable {first : List Char} {d : Directive} {rest : String}

theorem ne_nil_of_detect? (h : Directive.detect? (String.ofList first) = some (d, rest)) :
    first ≠ [] := by
  rintro rfl
  cases h

theorem spoken_of_detect? (h : Directive.detect? (String.ofList first) = some (d, rest))
    (ls : List (List Char)) :
    spoken (first :: ls) = first :: spoken ls :=
  spoken_cons_of_ne (ne_nil_of_detect? h) ls

theorem directive?_cons (h : Directive.detect? (String.ofList first) = some (d, rest))
    (ls : List (List Char)) (body : List String) :
    directive? ⟨(first :: ls).map String.ofList, body⟩ =
      some (d, rest, ls.map String.ofList) := by
  simp only [List.map_cons, directive?, h, Option.map_some]

end

/-- The metadata begin behind the lines that lead them, or with an entry on the line of
the directive, and are counted from there. -/
theorem Leads.exists_read {lead : List (List Char)} (h : Leads lead) :
    ∃ n above, (∀ l ∈ above, Harmless l) ∧ n + above.length = (spoken lead).length + 1 ∧
      ∀ {source : String} {ls : List (List Char)} {body : List String}
        {refusal : Refusal},
        split? source = some ⟨(spoken lead ++ ls).map String.ofList, body⟩ →
        Metadata.read n ((above ++ ls).map String.ofList) = .error refusal →
        ofSource source = ⟨none, [.skipped refusal.cellError]⟩ := by
  cases h with
  | @http first head h hh =>
      refine ⟨2, [], by simp, by rw [spoken_of_detect? h]; rfl, ?_⟩
      intro source ls body refusal hs hr
      have hhead (lines : List String) : httpHead head lines = ⟨head, 2, lines⟩ :=
        if_pos hh.ne_empty
      rw [spoken_of_detect? h] at hs
      simp only [ofSource, hs, List.cons_append, directive?_cons h]
      exact ofHttp_of_error (by rwa [hhead]) (by rwa [hhead])
  | @httpBelow first head gap h hg hh =>
      have hhead : head ≠ [] := fun he => hh.ne_empty (by rw [he])
      have hgap : spoken gap = [] :=
        List.filter_eq_nil_iff.2 fun l hl => by simpa using hg l hl
      have hspoken : spoken (first :: (gap ++ [head])) = [first, head] := by
        rw [spoken_of_detect? h, spoken_append, hgap, spoken_cons_of_ne hhead]
        rfl
      refine ⟨3, [], by simp, by rw [hspoken]; rfl, ?_⟩
      intro source ls body refusal hs hr
      rw [hspoken] at hs
      simp only [ofSource, hs, List.cons_append, directive?_cons h]
      exact ofHttp_of_error hh hr
  | @socket first path h hp =>
      refine ⟨2, [], by simp, by rw [spoken_of_detect? h]; rfl, ?_⟩
      intro source ls body refusal hs hr
      rw [spoken_of_detect? h] at hs
      simp only [ofSource, hs, List.cons_append, directive?_cons h]
      exact ofSocket_of_error hp hr
  | @schedule first entry h he =>
      by_cases hentry : entry = []
      · refine ⟨2, [], by simp, by rw [spoken_of_detect? h]; rfl, ?_⟩
        intro source ls body refusal hs hr
        rw [spoken_of_detect? h] at hs
        simp only [ofSource, hs, List.cons_append, directive?_cons h]
        exact ofSchedule_of_error (by simpa [hentry] using hr)
      · refine ⟨1, [entry], by simpa using he, by rw [spoken_of_detect? h]; rfl, ?_⟩
        intro source ls body refusal hs hr
        rw [spoken_of_detect? h] at hs
        simp only [ofSource, hs, List.cons_append, directive?_cons h]
        exact ofSchedule_of_error (by simpa [hentry] using hr)

end CellSpec

/-! ## Cells with one wrong line -/

/-- A cell of comment lines and a body.  The lines stand behind one margin, bare markers
apart.  Behind those that lead the metadata there are entries and lines without any, and
among them one line that is no entry. -/
structure FaultyCell where
  source : String
  margin : List Char
  comments : List (List Char)
  lead : List (List Char)
  above : List (List Char)
  wrong : List Char
  below : List (List Char)
  body : List (List Char)
  lines_eq : (Text.lines source.toList).dropWhile allBlank = comments ++ body
  starts : Declaration.StartsBody body
  blank : allBlank margin = true
  texts : List.Forall₂ (Declaration.HasText margin) comments
    (lead ++ above ++ wrong :: below)
  leads : CellSpec.Leads lead
  harmlessAbove : ∀ l ∈ above, Harmless l
  isWrong : IsWrong wrong
  harmlessBelow : ∀ l ∈ below, Harmless l

namespace FaultyCell

open Declaration

def cell (c : FaultyCell) : Cell := ⟨.code, c.source⟩

/-- The number of the wrong line, as its author counts. -/
def wrongLine (c : FaultyCell) : Nat := (c.lead ++ c.above).length + 1

/-- The number of the wrong line among the lines that say something. -/
def blamedLine (c : FaultyCell) : Nat := (spoken (c.lead ++ c.above)).length + 1

theorem split?_source (c : FaultyCell) : split? c.source =
    some ⟨(spoken c.lead ++ (spoken c.above ++ c.wrong :: spoken c.below)).map
        String.ofList,
      c.body.map String.ofList⟩ := by
  have hne : c.wrong ≠ [] := by
    intro he
    exact c.isWrong.content_ne (by rw [he]; rfl)
  have hmem : c.wrong ∈ c.lead ++ c.above ++ c.wrong :: c.below := by simp
  rw [split?_comments c.blank c.starts c.lines_eq c.texts hmem hne c.isWrong.unindented,
    spoken_append, spoken_append, spoken_cons_of_ne hne, List.append_assoc]

theorem ofSource_eq (c : FaultyCell) :
    ∃ fault : Fault, CellSpec.ofSource c.source =
      ⟨none, [.skipped (.metadata c.blamedLine fault.message)]⟩ := by
  obtain ⟨n, above, habove, hcount, hsource⟩ := c.leads.exists_read
  have hall : ∀ l ∈ above ++ spoken c.above, Harmless l := by
    intro l hl
    rcases List.mem_append.1 hl with hl | hl
    · exact habove l hl
    · exact c.harmlessAbove l (List.mem_of_mem_filter hl)
  have hbelow : ∀ l ∈ spoken c.below, Harmless l :=
    fun l hl => c.harmlessBelow l (List.mem_of_mem_filter hl)
  obtain ⟨fault, hread⟩ := read_wrong hall c.isWrong hbelow n
  have hline : n + (above ++ spoken c.above).length = c.blamedLine := by
    rw [blamedLine, spoken_append, List.length_append, List.length_append]
    omega
  rw [List.append_assoc, hline] at hread
  exact ⟨fault, hsource c.split?_source hread⟩

theorem isCompiled_cell (c : FaultyCell) : c.cell.isCompiled = true := by
  have hblank : allBlank c.source.toList = false := by
    cases hb : allBlank c.source.toList with
    | false => rfl
    | true =>
        have hs := c.split?_source
        rw [Cell.split?_of_allBlank hb] at hs
        cases hs
  simp [Cell.isCompiled, cell, hblank]

theorem compile_cell (c : FaultyCell) (generated : Nat) :
    ∃ fault : Fault, c.cell.compile generated =
    ⟨(.skipped, generated), [.skipped (.metadata c.blamedLine fault.message)]⟩ := by
  obtain ⟨fault, hfault⟩ := c.ofSource_eq
  have hsource : CellSpec.ofSource c.cell.source = _ := hfault
  refine ⟨fault, ?_⟩
  rw [Cell.compile, if_pos c.isCompiled_cell, hsource]
  rfl

/-- The cell is left out with one finding, which names the wrong line among
the lines that say something.  That is its own number exactly if there is no
bare marker above it. -/
theorem refused (c : FaultyCell) (generated : Nat) :
    (∃ fault : Fault, c.cell.compile generated =
      ⟨(.skipped, generated), [.skipped (.metadata c.blamedLine fault.message)]⟩) ∧
    (c.blamedLine = c.wrongLine ↔ [] ∉ c.lead ++ c.above) := by
  refine ⟨c.compile_cell generated, ?_⟩
  rw [← length_spoken_eq_iff, blamedLine, wrongLine, Nat.add_right_cancel_iff]

/-- An endpoint with a bare marker below its head and a line
without a colon below that. -/
def belowBareMarker : FaultyCell where
  source := "# @HTTP GET /x\n#\n# junk\ndef f():\n    pass"
  margin := []
  comments := ["# @HTTP GET /x".toList, "#".toList, "# junk".toList]
  lead := ["@HTTP GET /x".toList]
  above := [[]]
  wrong := "junk".toList
  below := []
  body := ["def f():".toList, "    pass".toList]
  lines_eq := by cbv
  starts := by
    rintro l ⟨⟩
    refine ⟨by decide, fun t => ?_⟩
    cases t <;> decide
  blank := rfl
  texts := by
    have h (l t : List Char) (hl : IsComment l) (hs : said l = t) (hne : t ≠ []) :
        HasText [] l t := ⟨hl, .inr ⟨hs, hne⟩⟩
    exact .cons (h _ _ rfl (by decide) (by decide)) (.cons ⟨rfl, .inl ⟨rfl, rfl⟩⟩
      (.cons (h _ _ rfl (by decide) (by decide)) .nil))
  leads := by
    have hdetect : Directive.detect? (String.ofList "@HTTP GET /x".toList) =
        some (.http, "GET /x") := by cbv
    exact .http hdetect ⟨.get, by cbv, by decide⟩
  harmlessAbove := by simp [harmless_nil]
  isWrong := by
    refine ⟨?_, by decide, ?_⟩
    · rintro c ⟨⟩
      rfl
    · intro key text h
      have hnone : splitKey? (content "junk".toList) = none := by decide
      rw [h.splitKey] at hnone
      cases hnone
  harmlessBelow := by simp

/-- With a bare marker above it, the wrong line is not the one that is blamed. -/
theorem wrongLine_missed : ¬ ∀ (c : FaultyCell) (generated line : Nat) (detail : String),
    .skipped (.metadata line detail) ∈ (c.cell.compile generated).findings →
      line = c.wrongLine := by
  intro hall
  obtain ⟨fault, hcompile⟩ := belowBareMarker.compile_cell 0
  have hblamed : belowBareMarker.blamedLine = belowBareMarker.wrongLine :=
    hall belowBareMarker 0 _ fault.message (hcompile ▸ List.mem_singleton_self _)
  exact absurd hblamed (by decide)

end FaultyCell

end NotebookService
