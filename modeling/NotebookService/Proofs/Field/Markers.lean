/-
# `NotebookService.Proofs.Field.Markers` — which fields come out without their markers

The marker behind a type says whether the value may be missing, and the field that is
declared has the type without it.  A field is `Canonical` if it has a name and a type
and neither of them ends in a marker.

However a field list is written, each of its fields comes from a text `name: type` or
from a name with a collection behind it.  `origins` lists these in order.
`canonical_iff` says which lists declare canonical fields only: those in which every
origin that declares a field is `Clean`.  A type is never missing, and it loses one
marker.  So there are three ways to go wrong: a name that ends in a marker itself, a
type with two of them, and a collection behind no name.
-/
import NotebookService.Proofs.Field.Written

namespace NotebookService

open NotebookService.Text NotebookService.Metadata

/-! ## Texts that end in a marker -/

/-- A text that ends in a marker. -/
def Marked (s : List Char) : Prop := ∃ (m : Marker) (u : List Char), s = u ++ [m.char]

/-- A text that ends in a marker and has another one in front of it, with nothing but
blanks between them. -/
def TwiceMarked (s : List Char) : Prop :=
  ∃ (m n : Marker) (u gap : List Char), allBlank gap = true ∧
    s = u ++ m.char :: (gap ++ [n.char])

variable {s t u : List Char}

theorem Marker.isBlank_char (m : Marker) : isBlank m.char = false := by cases m <;> rfl

theorem marked_iff_getLast? : Marked s ↔ ∃ m : Marker, s.getLast? = some m.char := by
  constructor
  · rintro ⟨m, u, rfl⟩
    exact ⟨m, List.getLast?_concat⟩
  · rintro ⟨m, hm⟩
    exact ⟨m, s.dropLast, (List.dropLast_append_getLast? m.char hm).symm⟩

theorem TwiceMarked.marked (h : TwiceMarked s) : Marked s := by
  obtain ⟨m, n, u, gap, -, rfl⟩ := h
  exact ⟨n, u ++ m.char :: gap, by rw [List.append_assoc, List.cons_append]⟩

/-- Without its last marker and the blanks in front of it, a text is marked exactly if
it was marked twice. -/
theorem twiceMarked_concat_iff (n : Marker) :
    TwiceMarked (u ++ [n.char]) ↔ Marked (trimEnd u) := by
  constructor
  · rintro ⟨m, n', u', gap, hg, he⟩
    rw [← List.cons_append, ← List.append_assoc] at he
    obtain ⟨rfl, -⟩ := List.append_inj' he rfl
    exact ⟨m, u', by rw [trimEnd_append_cons_of_not m.isBlank_char, trimEnd_eq_nil.2 hg]⟩
  · rintro ⟨m, w, hw⟩
    obtain ⟨gap, hu, hg⟩ := exists_trimEnd_append u
    exact ⟨m, n, w, gap,
      hg, by rw [hu, hw, List.append_assoc, List.append_assoc, List.singleton_append]⟩

namespace Field

/-! ## The parts of a declaration -/

theorem splitMarker_concat (m : Marker) (u : List Char) :
    splitMarker (u ++ [m.char]) = (trimEnd u, decide (m = .optional)) := by
  cases m <;> simp [splitMarker, Marker.char]

theorem splitMarker_of_not (h : ¬ Marked t) : splitMarker t = (t, false) := by
  have hlast (m : Marker) : t.getLast? ≠ some m.char :=
    fun hm => h (marked_iff_getLast?.2 ⟨m, hm⟩)
  have hoptional : t.getLast? ≠ some '?' := hlast .optional
  have hrequired : t.getLast? ≠ some '!' := hlast .required
  rw [splitMarker, if_neg hoptional, if_neg hrequired]

/-- One marker is taken off, and no more. -/
theorem marked_splitMarker_iff : Marked (splitMarker t).1 ↔ TwiceMarked t := by
  by_cases h : Marked t
  · obtain ⟨m, u, rfl⟩ := h
    rw [splitMarker_concat, twiceMarked_concat_iff]
  · rw [splitMarker_of_not h]
    exact ⟨fun hm => absurd hm h, fun ht => absurd ht.marked h⟩

/-- What stands in front of the first colon of a declaration, or all of
it if there is none. -/
def namePart (s : List Char) : List Char := trim (s.takeWhile (· ≠ ':'))

/-- What stands behind the first colon of a declaration. -/
def typePart (s : List Char) : List Char := trim ((s.dropWhile (· ≠ ':')).drop 1)

theorem splitAtColon_trim (s : List Char) :
    splitAtColon (trim s) = (namePart s, typePart s) := by
  by_cases hs : ':' ∈ s
  · obtain ⟨a, b, rfl, ha⟩ := List.eq_append_cons_of_mem hs
    have hcolon : isBlank ':' = false := rfl
    have hstart : ':' ∉ trimStart a := fun hc => ha ((List.dropWhile_suffix _).subset hc)
    have htrim : trim (a ++ ':' :: b) = trimStart a ++ ':' :: trimEnd b := by
      rw [trim, trimStart, dropWhile_append_cons_of_not hcolon,
        trimEnd_append_cons_of_not hcolon, trimStart]
    rw [splitAtColon, htrim, dropWhile_ne_colon hstart, takeWhile_ne_colon hstart,
      namePart, typePart, takeWhile_ne_colon ha, dropWhile_ne_colon ha]
    simp only [trim_trimStart, trim_trimEnd, List.drop_one, List.tail_cons]
  · have hall : ∀ c ∈ s, decide (c ≠ ':') = true :=
      fun c hc => decide_eq_true fun he => hs (he ▸ hc)
    have hend := trimEnd_prefix (trimStart s)
    have htrim : trim s ⊆ s :=
      fun c hc => (List.dropWhile_suffix _).subset (hend.subset hc)
    have hdrop : (trim s).dropWhile (· ≠ ':') = [] :=
      List.dropWhile_eq_nil_iff.2 fun c hc => hall c (htrim hc)
    rw [splitAtColon, hdrop, namePart, typePart, List.takeWhile_eq_self_iff.2 hall,
      List.dropWhile_eq_nil_iff.2 hall]
    rfl

/-- The type of a field whose declaration has this behind its colon. -/
def namedType (t : List Char) : String :=
  if (splitMarker t).1 = [] then anyType else String.ofList (splitMarker t).1

theorem namedType_ne_empty (t : List Char) : namedType t ≠ "" := by
  rw [namedType]
  split
  · decide
  · rename_i h
    simpa using h

theorem marked_namedType_iff : Marked (namedType t).toList ↔ TwiceMarked t := by
  rw [← marked_splitMarker_iff, namedType]
  split
  · rename_i h
    have hany : ¬ Marked anyType.toList := by
      rw [marked_iff_getLast?]
      rintro ⟨m, hm⟩
      cases m <;> cases hm
    have hnil : ¬ Marked ([] : List Char) := by
      rw [marked_iff_getLast?]
      rintro ⟨m, hm⟩
      cases hm
    rw [h]
    exact ⟨fun hm => absurd hm hany, fun hm => absurd hm hnil⟩
  · rw [String.toList_ofList]

theorem value_parse (s : List Char) : (parse s).value =
    if namePart s = [] then none
    else some ⟨String.ofList (namePart s), namedType (typePart s),
      (splitMarker (typePart s)).2⟩ := by
  have hsplit := splitAtColon_trim s
  by_cases hs : trim s = []
  · have hname : namePart s = [] := by
      rw [hs] at hsplit
      exact (Prod.mk.inj hsplit).1.symm
    simp [parse, hs, hname]
  · by_cases hname : namePart s = []
    · simp [parse, hs, hsplit, hname]
    · by_cases htype : (splitMarker (typePart s)).1 = []
      · simp [parse, hs, hsplit, hname, htype, namedType]
      · simp [parse, hs, hsplit, hname, htype, namedType]

/-! ## Where fields come from -/

/-- A field list consists of texts, and of names with a collection behind them,
which are no types. -/
inductive Origin where
  | text (declaration : List Char)
  | collection (name : String)

namespace Origin

def name : Origin → List Char
  | text s => namePart s
  | collection name => name.toList

def type : Origin → List Char
  | text s => typePart s
  | collection _ => []

/-- The field that is declared, if one is. -/
def field? : Origin → Option Field
  | text s => (parse s).value
  | collection name => some (required name anyType)

/-- Nothing is declared by a text without a name. -/
def Declares : Origin → Prop
  | text s => namePart s ≠ []
  | collection _ => True

/-- A name without a marker, and a type with one marker at most. -/
structure Clean (o : Origin) : Prop where
  name_ne : o.name ≠ []
  name_unmarked : ¬ Marked o.name
  type_unmarked : ¬ TwiceMarked o.type

/-- Where the field of a mapping's entry comes from. -/
def ofEntry (name : String) : Value → Origin
  | .null => text name.toList
  | .list _ | .map _ => collection name
  | scalar => text (name ++ ": " ++ scalar.scalarText?.getD "").toList

def ofEntries (es : List (String × Value)) : List Origin :=
  es.map fun e => ofEntry e.1 e.2

def ofScalar (v : Value) : List Origin :=
  (v.scalarText?.map fun s => text s.toList).toList

def ofItem : Value → List Origin
  | .map es => ofEntries es
  | .list _ => []
  | scalar => ofScalar scalar

end Origin

/-- Where the fields of a value come from, in order. -/
def origins : Value → List Origin
  | .str s => (splitTopLevel s.toList).map .text
  | .list items => items.flatMap Origin.ofItem
  | .map es => Origin.ofEntries es
  | scalar => Origin.ofScalar scalar

/-- A field with a name and a type, neither of which ends in a marker. -/
structure Canonical (f : Field) : Prop where
  name_ne : f.name ≠ ""
  type_ne : f.type ≠ ""
  name_unmarked : ¬ Marked f.name.toList
  type_unmarked : ¬ Marked f.type.toList

namespace Origin

variable {o : Origin} {f : Field}

theorem field?_eq_some (h : o.Declares) :
    ∃ optional, o.field? = some ⟨String.ofList o.name, namedType o.type, optional⟩ := by
  cases o with
  | text s => exact ⟨_, by rw [field?, value_parse, if_neg h, name, type]⟩
  | collection name => exact ⟨false, by rw [Origin.name, String.ofList_toList]; rfl⟩

theorem field?_eq_none (h : ¬ o.Declares) : o.field? = none := by
  cases o with
  | text s => rw [field?, value_parse, if_pos (not_not.1 h)]
  | collection name => exact absurd trivial h

theorem declares_of_field? (h : o.field? = some f) : o.Declares := by
  by_contra hn
  rw [field?_eq_none hn] at h
  cases h

theorem canonical_iff_clean (h : o.field? = some f) : f.Canonical ↔ o.Clean := by
  obtain ⟨optional, hf⟩ := field?_eq_some (declares_of_field? h)
  obtain rfl := Option.some.inj (h.symm.trans hf)
  have hname : String.ofList o.name ≠ "" ↔ o.name ≠ [] := by simp
  have hlist : (String.ofList o.name).toList = o.name := String.toList_ofList
  constructor
  · rintro ⟨hn, -, hm, ht⟩
    exact ⟨hname.1 hn, hlist ▸ hm, mt marked_namedType_iff.2 ht⟩
  · rintro ⟨hn, hm, ht⟩
    exact ⟨hname.2 hn, namedType_ne_empty _, hlist.symm ▸ hm,
      mt marked_namedType_iff.1 ht⟩

end Origin

/-! ## All fields of a value -/

theorem value_parseAll (ds : List (List Char)) :
    (parseAll ds).value = (ds.map Origin.text).filterMap Origin.field? := by
  induction ds with
  | nil => rfl
  | cons d ds ih =>
      rw [parseAll]
      simp only [Noted.value_bind, Noted.value_pure, ih, List.map_cons,
        List.filterMap_cons, Origin.field?]
      cases (parse d).value <;> rfl

theorem value_ofEntry (name : String) (v : Value) :
    (ofEntry name v).value = (Origin.ofEntry name v).field? := by
  cases v <;> rfl

theorem value_ofEntries (es : List (String × Value)) :
    (ofEntries es).value = (Origin.ofEntries es).filterMap Origin.field? := by
  induction es with
  | nil => rfl
  | cons e es ih =>
      rw [Origin.ofEntries] at ih ⊢
      rw [ofEntries]
      simp only [Noted.value_bind, Noted.value_pure, ih, value_ofEntry, List.map_cons,
        List.filterMap_cons]
      cases (Origin.ofEntry e.1 e.2).field? <;> rfl

theorem value_ofScalar (v : Value) :
    (ofScalar v).value = (Origin.ofScalar v).filterMap Origin.field? := by
  rw [ofScalar, Origin.ofScalar]
  cases v.scalarText? with
  | none => rfl
  | some text => exact value_parseAll [text.toList]

theorem value_ofItem (v : Value) :
    (ofItem v).value = (Origin.ofItem v).filterMap Origin.field? := by
  cases v with
  | map es => exact value_ofEntries es
  | list items => rfl
  | null | bool _ | int _ | float _ | str _ => exact value_ofScalar _

theorem value_ofItems (vs : List Value) :
    (ofItems vs).value = (vs.flatMap Origin.ofItem).filterMap Origin.field? := by
  induction vs with
  | nil => rfl
  | cons v vs ih =>
      rw [ofItems]
      simp only [Noted.value_bind, Noted.value_pure, ih, value_ofItem, List.flatMap_cons,
        List.filterMap_append]

/-- The fields of a value are those that its origins declare. -/
theorem value_ofValue (v : Value) :
    (ofValue v).value = (origins v).filterMap Origin.field? := by
  cases v with
  | str s => exact value_parseAll _
  | list items => exact value_ofItems items
  | map es => exact value_ofEntries es
  | null | bool _ | int _ | float _ => exact value_ofScalar _

theorem mem_value_ofValue {v : Value} {f : Field} :
    f ∈ (ofValue v).value ↔ ∃ o ∈ origins v, o.field? = some f := by
  rw [value_ofValue, List.mem_filterMap]

/-- No field is without a type.  All fields of a value are canonical exactly if
everything that declares one of them is clean. -/
theorem canonical_iff (v : Value) : (∀ f ∈ (ofValue v).value, f.type ≠ "") ∧
    ((∀ f ∈ (ofValue v).value, f.Canonical) ↔ ∀ o ∈ origins v, o.Declares → o.Clean) := by
  refine ⟨?_, ?_, ?_⟩
  · intro f hf
    obtain ⟨o, -, ho⟩ := mem_value_ofValue.1 hf
    obtain ⟨optional, hfield⟩ := Origin.field?_eq_some (Origin.declares_of_field? ho)
    obtain rfl := Option.some.inj (ho.symm.trans hfield)
    exact namedType_ne_empty _
  · intro hall o ho hd
    obtain ⟨optional, hfield⟩ := Origin.field?_eq_some hd
    exact (Origin.canonical_iff_clean hfield).1
      (hall _ (mem_value_ofValue.2 ⟨o, ho, hfield⟩))
  · intro hall f hf
    obtain ⟨o, ho, hfield⟩ := mem_value_ofValue.1 hf
    exact (Origin.canonical_iff_clean hfield).2
      (hall o ho (Origin.declares_of_field? hfield))

/-- Where a field is declared without a type, its marker stays with the name. -/
theorem marker_left : ¬ ∀ (v : Value), ∀ f ∈ (ofValue v).value, f.Canonical := by
  intro hall
  have hread : (ofValue (.str "limit?")).value = [⟨"limit?", "Any", false⟩] := rfl
  have hcanonical :=
    hall (.str "limit?") ⟨"limit?", "Any", false⟩ (hread ▸ List.mem_singleton_self _)
  exact hcanonical.name_unmarked ⟨.optional, "limit".toList, by decide⟩

end Field

end NotebookService
