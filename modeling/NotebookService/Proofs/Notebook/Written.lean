/-
# `NotebookService.Proofs.Notebook.Written` — the cells of a notebook are read back

The same cells can be written in many ways.  The members of an object may come in any
order and among others that mean nothing here, a source may be one string or a list
of strings, and an empty source may be left out.  `IsNotebook` says which documents
have a list of cells written in them, and `cells_read_back` that they are read as
these cells, in order.

An object is read by its names alone: `only?`  finds the one member of a name wherever
it stands, so a record is known by its fields (`IsRecord.fields?_eq`), and everything
else follows field by field.  Names and texts are taken as they are read, so they may be
written with escapes.

Reading the text of a file is another matter.  Here it has been done and
there is a document.
-/
import Mathlib.Data.List.Permutation
import NotebookService.Notebook
import NotebookService.Project.Error
import NotebookService.Proofs.Decimal.Digits
import NotebookService.Table

namespace NotebookService.Notebook

open NotebookService.Json (Document Piece text?)

/-! ## Documents as they are written -/

/-- A document is a string with this text. -/
inductive IsText : Document → String → Prop
  | string {pieces : List Piece} {s : String} : text? pieces = some s →
      IsText (.string pieces) s

/-- A source is one string, or the strings of a list behind each other. -/
inductive IsSource : Document → String → Prop
  | whole {d : Document} {s : String} : IsText d s → IsSource d s
  | parts {items : List Document} {texts : List String} :
      List.Forall₂ IsText items texts →
      IsSource (.array items) (String.join texts)

/-- A member is read under this name. -/
def HasName (m : List Piece × Document) (field : String × Document) : Prop :=
  text? m.1 = some field.1 ∧ m.2 = field.2

/-- An object has these fields, in any order and among members whose
names are not `known`. -/
inductive IsRecord (known : List String) (fields : List (String × Document)) :
    Document → Prop
  | object {members own others : List (List Piece × Document)}
      {unknown : List (String × Document)} :
      members.Perm (own ++ others) → List.Forall₂ HasName own fields →
      List.Forall₂ HasName others unknown →
      (∀ name ∈ known, name ∉ Table.names unknown) →
      IsRecord known fields (.object members)

/-- The words for the kinds of cells.  A word that is for no other kind is for text. -/
inductive IsKindWord : CellKind → String → Prop
  | code : IsKindWord .code "code"
  | raw : IsKindWord .raw "raw"
  | markdown {word : String} : word ≠ "code" → word ≠ "raw" → IsKindWord .markdown word

/-- A document has this cell written in it. -/
inductive IsCell (d : Document) (c : Cell) : Prop
  | withSource {word : String} {type source : Document} : IsKindWord c.kind word →
      IsText type word →
      IsSource source c.source →
      IsRecord ["cell_type", "source"] [("cell_type", type), ("source", source)] d →
      IsCell d c
  | withoutSource {word : String} {type : Document} : IsKindWord c.kind word →
      IsText type word →
      c.source = "" → IsRecord ["cell_type", "source"] [("cell_type", type)] d →
      IsCell d c

/-- The version of a notebook, if it is given. -/
def formatField : Option Nat → List (String × Document)
  | none => []
  | some n => [("nbformat", .number ⟨false, Decimal.digitsOf n, [], none⟩)]

/-- A document has this version and these cells written in it. -/
inductive IsNotebook (d : Document) (format : Option Nat) (cells : List Cell) : Prop
  | written {items : List Document} : List.Forall₂ IsCell items cells →
      IsRecord ["nbformat", "cells"] (formatField format ++ [("cells", .array items)]) d →
      IsNotebook d format cells

/-! ## Records -/

theorem mapM_eq_some_of_forall₂ {α β : Type} {f : α → Option β} {xs : List α}
    {ys : List β} (h : List.Forall₂ (fun x y => f x = some y) xs ys) :
    xs.mapM f = some ys := by
  induction h with
  | nil => rfl
  | cons hx _ ih =>
      rw [List.mapM_cons, hx, ih]
      rfl

theorem filter_name_eq {fields : List (String × Document)}
    (h : (Table.names fields).Nodup) (name : String) :
    fields.filter (·.1 = name) = (fields.lookup name).toList.map (name, ·) := by
  induction fields with
  | nil => rfl
  | cons f fields ih =>
      obtain ⟨other, d⟩ := f
      obtain ⟨hf, hn⟩ := List.nodup_cons.1 h
      by_cases he : other = name
      · subst he
        have hnone : fields.lookup other = none := Table.lookup_eq_none_of_not_mem hf
        rw [List.filter_cons_of_pos (by simp), ih hn, hnone, List.lookup_cons_self]
        rfl
      · have hl : ((other, d) :: fields).lookup name = fields.lookup name := by
          rw [List.lookup_cons, beq_false_of_ne (Ne.symm he)]
        rw [List.filter_cons_of_neg (by simpa using he), ih hn, hl]

/-- A name is found wherever its field stands, and whatever is written
under other names. -/
theorem only?_eq_lookup {fields unknown members : List (String × Document)}
    {name : String} (hp : members.Perm (fields ++ unknown))
    (hd : (Table.names fields).Nodup) (hu : name ∉ Table.names unknown) :
    only? name members = some (fields.lookup name) := by
  have hother : unknown.filter (·.1 = name) = [] := by
    refine List.filter_eq_nil_iff.2 fun m hm he => hu ?_
    rw [← of_decide_eq_true he]
    exact Table.mem_names_of_mem hm
  have hown : (members.filter (·.1 = name)).Perm
      ((fields.lookup name).toList.map (name, ·)) := by
    have hf := hp.filter (·.1 = name)
    rwa [List.filter_append, hother, List.append_nil, filter_name_eq hd] at hf
  cases hl : fields.lookup name with
  | none =>
      rw [hl] at hown
      rw [only?, hown.eq_nil]
  | some d =>
      rw [hl] at hown
      rw [only?, List.perm_singleton.1 hown]

theorem IsRecord.fields?_eq {first second : String} {fields : List (String × Document)}
    {d : Document} (h : IsRecord [first, second] fields d)
    (hd : (Table.names fields).Nodup) :
    fields? first second d = some (fields.lookup first, fields.lookup second) := by
  obtain ⟨hp, hown, hothers, hknown⟩ := h
  -- the members are read one by one, so what is read is permuted as they are
  obtain ⟨named, hread, hp⟩ := List.perm_comp_forall₂ hp (List.rel_append hown hothers)
  have hnames := mapM_eq_some_of_forall₂ (f := fun m => (text? m.1).map (·, m.2))
    (hread.imp ?_)
  · have hfirst := only?_eq_lookup hp hd (hknown first List.mem_cons_self)
    have hsecond := only?_eq_lookup hp hd
      (hknown second (List.mem_cons_of_mem _ List.mem_cons_self))
    simp only [fields?, hnames, bind, Option.bind, hfirst, hsecond]
    rfl
  · rintro m field ⟨hn, hv⟩
    rw [hn, hv]
    rfl

/-! ## Fields -/

theorem IsText.string?_eq {d : Document} {s : String} (h : IsText d s) :
    string? d = some s := by
  obtain ⟨hs⟩ := h
  exact hs

theorem IsSource.source?_eq {d : Document} {s : String} (h : IsSource d s) :
    source? d = some s := by
  cases h with
  | whole h =>
      obtain ⟨hs⟩ := h
      exact hs
  | parts h =>
      rw [source?, mapM_eq_some_of_forall₂ (h.imp fun _ _ => IsText.string?_eq)]
      rfl

theorem format?_eq {n : Nat} (h : n < UInt32.size) :
    format? (.number ⟨false, Decimal.digitsOf n, [], none⟩) = some n := by
  rw [format?, Decimal.valueOf_digitsOf]
  exact if_pos h

theorem IsKindWord.kind_eq {kind : CellKind} {word source : String}
    (h : IsKindWord kind word) :
    (⟨word, source⟩ : NotebookCell).kind = kind := by
  cases h with
  | code => rfl
  | raw => rfl
  | markdown hc hr => rw [NotebookCell.kind, if_neg hc, if_neg hr]

theorem IsCell.exists_cell? {d : Document} {c : Cell} (h : IsCell d c) :
    ∃ n, cell? d = some n ∧ n.cell = c := by
  obtain ⟨kind, text⟩ := c
  cases h with
  | @withSource word type source hw ht hs hr =>
      refine ⟨⟨word, text⟩, ?_, by rw [NotebookCell.cell, hw.kind_eq]⟩
      have hf : fields? "cell_type" "source" d = some (some type, some source) :=
        hr.fields?_eq (by simp [Table.names])
      rw [cell?, hf]
      simp only [bind, Option.bind, ht.string?_eq, orElse, hs.source?_eq]
      rfl
  | @withoutSource word type hw ht hs hr =>
      cases hs
      refine ⟨⟨word, ""⟩, ?_, by rw [NotebookCell.cell, hw.kind_eq]⟩
      have hf : fields? "cell_type" "source" d = some (some type, none) :=
        hr.fields?_eq (by simp [Table.names])
      rw [cell?, hf]
      simp only [bind, Option.bind, ht.string?_eq, orElse]
      rfl

theorem exists_mapM_cell? {items : List Document} {cells : List Cell}
    (h : List.Forall₂ IsCell items cells) :
    ∃ ns, items.mapM cell? = some ns ∧ ns.map NotebookCell.cell = cells := by
  induction h with
  | nil => exact ⟨[], rfl, rfl⟩
  | cons hc _ ih =>
      obtain ⟨n, hn, rfl⟩ := hc.exists_cell?
      obtain ⟨ns, hns, rfl⟩ := ih
      refine ⟨n :: ns, ?_, rfl⟩
      rw [List.mapM_cons, hn, hns]
      rfl

/-! ## Notebooks -/

/-- The version is read if it is there, and the cells are found behind it. -/
theorem lookup_formatField {format : Option Nat} {cells : Document}
    (hb : ∀ n ∈ format, n < UInt32.size) :
    let fields := formatField format ++ [("cells", cells)]
    (Table.names fields).Nodup ∧
      orElse 0 format? (fields.lookup "nbformat") = some (format.getD 0) ∧
      fields.lookup "cells" = some cells := by
  intro fields
  cases format with
  | none => exact ⟨List.nodup_singleton "cells", rfl, rfl⟩
  | some n =>
      exact ⟨(by decide : ["nbformat", "cells"].Nodup), format?_eq (hb n rfl), rfl⟩

theorem IsNotebook.exists_ofDocument? {d : Document} {format : Option Nat}
    {cells : List Cell} (h : IsNotebook d format cells)
    (hb : ∀ n ∈ format, n < UInt32.size) :
    ∃ n, ofDocument? d = some n ∧ n.format = format.getD 0 ∧ n.compiledCells = cells := by
  obtain @⟨items, hc, hr⟩ := h
  obtain ⟨ns, hns, rfl⟩ := exists_mapM_cell? hc
  obtain ⟨hd, hformat, hcells⟩ := @lookup_formatField format (.array items) hb
  refine ⟨⟨format.getD 0, ns⟩, ?_, rfl, rfl⟩
  have hf := hr.fields?_eq hd
  rw [hcells] at hf
  rw [ofDocument?, hf]
  simp only [bind, Option.bind, hformat, cells?, hns]
  rfl

/-- A text whose document has cells written in it is a notebook of these cells, in
order, if no version is given, or 0, or one from 4 on.  With a version from 1 to 3 it is
refused as no notebook that is read here. -/
theorem cells_read_back {text : String} {d : Document} {format : Option Nat}
    {cells : List Cell} (ht : Document.ofText? text = some d)
    (hd : IsNotebook d format cells) (hb : ∀ n ∈ format, n < UInt32.size) :
    ((∀ n ∈ format, n = 0 ∨ 4 ≤ n) → ∃ n, ofText text = .ok n ∧ n.compiledCells = cells) ∧
    ∀ n ∈ format, 1 ≤ n → n ≤ 3 → ∃ defect detail, ofText text = .error defect ∧
      ProjectError.ofDefect defect = .invalidNotebook detail := by
  obtain ⟨n, hn, hf, hc⟩ := hd.exists_ofDocument? hb
  have hread : ofText text =
      if n.format ≠ 0 ∧ n.format < oldestFormat then .error (.unsupported n.format)
      else .ok n := by
    rw [ofText, ht, Option.bind_some, hn]
  rw [hread]
  constructor
  · intro hv
    have hnew : ¬ (n.format ≠ 0 ∧ n.format < oldestFormat) := by
      rintro ⟨h0, hlt⟩
      cases format with
      | none => exact h0 hf
      | some v =>
          have hv := hv v rfl
          rw [hf, Option.getD_some] at h0 hlt
          exact hv.elim h0 (Nat.not_le.2 hlt)
    exact ⟨n, if_neg hnew, hc⟩
  · rintro v rfl h1 h3
    have hold : n.format ≠ 0 ∧ n.format < oldestFormat := by
      rw [hf, Option.getD_some, oldestFormat]
      omega
    exact ⟨.unsupported n.format, _, if_pos hold, rfl⟩

/-! ## A notebook out of order -/

/-- A text without escapes. -/
def plain (s : String) : List Piece := s.toList.map .char

theorem text?_plain (s : String) : text? (plain s) = some s := by
  have hc (l : List Char) : Json.characters? (l.map .char) = some l := by
    induction l with
    | nil => rfl
    | cons c l ih =>
        rw [List.map_cons, Json.characters?, ih]
        rfl
  rw [plain, text?, hc, Option.map_some, String.ofList_toList]

theorem isText_plain (s : String) : IsText (.string (plain s)) s :=
  .string (text?_plain s)

/-- An object whose names are written without escapes. -/
def object (fields : List (String × Document)) : Document :=
  .object (fields.map fun f => (plain f.1, f.2))

theorem isRecord_object {known : List String} {all fields : List (String × Document)}
    (unknown : List (String × Document)) (hp : all.Perm (fields ++ unknown))
    (hu : ∀ name ∈ known, name ∉ Table.names unknown) :
    IsRecord known fields (object all) := by
  have hname (l : List (String × Document)) :
      List.Forall₂ HasName (l.map fun f => (plain f.1, f.2)) l :=
    List.forall₂_map_left_iff.2 (List.forall₂_same.2 fun f _ => ⟨text?_plain f.1, rfl⟩)
  refine .object ?_ (hname fields) (hname unknown) hu
  rw [← List.map_append]
  exact hp.map _

/-- The source comes first and in two parts, and there is a member that is not read. -/
def codeCell : Document :=
  object [("source", .array [.string (plain "a"), .string (plain "b")]),
    ("id", .number ⟨false, ['1'], [], none⟩),
    ("cell_type", .string (plain "code"))]

/-- There is no source. -/
def rawCell : Document := object [("cell_type", .string (plain "raw"))]

/-- The version comes last. -/
def twoCells : Document :=
  object [("cells", .array [codeCell, rawCell]),
    ("nbformat", .number ⟨false, ['4'], [], none⟩)]

theorem isCell_codeCell : IsCell codeCell ⟨.code, "ab"⟩ := by
  have hsource : IsSource (.array [.string (plain "a"), .string (plain "b")]) "ab" :=
    @IsSource.parts _ ["a", "b"]
      (.cons (isText_plain "a") (.cons (isText_plain "b") .nil))
  refine .withSource .code (isText_plain "code") hsource
    (isRecord_object [("id", .number ⟨false, ['1'], [], none⟩)]
      (@List.perm_append_comm _ [_, _] [_]) ?_)
  decide

theorem isCell_rawCell : IsCell rawCell ⟨.raw, ""⟩ := by
  refine .withoutSource .raw (isText_plain "raw") rfl (isRecord_object [] (.refl _) ?_)
  decide

theorem isNotebook_twoCells :
    IsNotebook twoCells (some 4) [⟨.code, "ab"⟩, ⟨.raw, ""⟩] := by
  refine .written (.cons isCell_codeCell (.cons isCell_rawCell .nil))
    (isRecord_object [] (.swap _ _ _) ?_)
  decide

set_option maxRecDepth 2000 in
/-- A notebook with its members out of order and others among them, a source in two
parts and a source left out. -/
theorem cells_read_back_members :
    let text :=
      "\x7b\"cells\":[\x7b\"source\":[\"a\",\"b\"],\"id\":1,\"cell_type\":\"code\"\x7d," ++
      "\x7b\"cell_type\":\"raw\"\x7d],\"nbformat\":4\x7d"
    ∃ n, ofText text = .ok n ∧ n.compiledCells = [⟨.code, "ab"⟩, ⟨.raw, ""⟩] := by
  intro text
  have hd : Document.ofText? text = some twoCells := by
    rw [Document.ofText?, String.toList_append]
    cbv
  have hb : ∀ n ∈ some 4, n < UInt32.size := by decide
  have hv : ∀ n ∈ some 4, n = 0 ∨ 4 ≤ n := by decide
  exact (cells_read_back hd isNotebook_twoCells hb).1 hv

end NotebookService.Notebook
