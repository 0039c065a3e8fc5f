/-
# `NotebookService.Field` — declared fields

A field `name: type` describes one value that a service takes or gives: a part of a
request body, a query parameter, a header, a part of a response or of a message.  A `?`
behind the type says that the value may be missing, a `!`  that it may not; the marker
is not part of the type.

A field list can be written as one text with commas, as a list of texts or mappings, or
as a mapping from names to types.  `ofValue` brings all of them to the same fields.
-/
import NotebookService.Diagnostic
import NotebookService.Metadata.Value
import NotebookService.Text.Nesting

namespace NotebookService

open NotebookService.Text

structure Field where
  name : String
  type : String
  optional : Bool
  deriving DecidableEq, Repr, Inhabited

namespace Field

/-- The type of a field that is declared without one. -/
def anyType : String := "Any"

def required (name type : String) : Field := ⟨name, type, false⟩

/-- The type as it is written behind a parameter or in a model. -/
def typeHint (f : Field) : String := if f.optional then s!"Optional[{f.type}]" else f.type

/-! ## Reading one field -/

/-- The text before the first colon and the text after it, both trimmed;
no colon, no type. -/
def splitAtColon (s : List Char) : List Char × List Char :=
  match s.dropWhile (· ≠ ':') with
  | [] => (s, [])
  | _ :: type => (trim (s.takeWhile (· ≠ ':')), trim type)

/-- The type without its marker, and whether the marker says that the
value may be missing. -/
def splitMarker (type : List Char) : List Char × Bool :=
  if type.getLast? = some '?' then (trimEnd type.dropLast, true)
  else if type.getLast? = some '!' then (trimEnd type.dropLast, false)
  else (type, false)

/-- One declaration `name: type`.  A blank one declares nothing. -/
def parse (declaration : List Char) : Noted (Option Field) :=
  let declaration := trim declaration
  if declaration.isEmpty then return none
  else
    let (name, marked) := splitAtColon declaration
    if name.isEmpty then do
      Noted.note (.fieldWithoutName (String.ofList declaration))
      return none
    else
      let (type, optional) := splitMarker marked
      if type.isEmpty then do
        Noted.note (.fieldWithoutType (String.ofList name))
        return some ⟨String.ofList name, anyType, optional⟩
      else return some ⟨String.ofList name, String.ofList type, optional⟩

/-- The fields of declarations, in order. -/
def parseAll : List (List Char) → Noted (List Field)
  | [] => return []
  | d :: ds => do
    let field ← parse d
    let fields ← parseAll ds
    return field.toList ++ fields

/-! ## Reading a field list -/

/-- The field that an entry of a mapping declares. -/
def ofEntry (name : String) (type : Metadata.Value) : Noted (Option Field) :=
  match type with
  | .null => parse name.toList
  | .list _ | .map _ => do
    Noted.note (.fieldTypeUnsupported name)
    return some (required name anyType)
  | scalar => parse (name ++ ": " ++ scalar.scalarText?.getD "").toList

def ofEntries : List (String × Metadata.Value) → Noted (List Field)
  | [] => return []
  | (name, type) :: entries => do
    let field ← ofEntry name type
    let fields ← ofEntries entries
    return field.toList ++ fields

/-- The field of a scalar, whose text is one declaration. -/
def ofScalar (v : Metadata.Value) : Noted (List Field) :=
  match v.scalarText? with
  | none => return []
  | some text => parseAll [text.toList]

/-- The fields that an item of a list declares. -/
def ofItem : Metadata.Value → Noted (List Field)
  | .map entries => ofEntries entries
  | .list _ => do
    Noted.note .nestedFieldList
    return []
  | scalar => ofScalar scalar

def ofItems : List Metadata.Value → Noted (List Field)
  | [] => return []
  | v :: vs => do
    let fields ← ofItem v
    let rest ← ofItems vs
    return fields ++ rest

/-- The fields that a metadata value declares. -/
def ofValue : Metadata.Value → Noted (List Field)
  | .str s => parseAll (splitTopLevel s.toList)
  | .list items => ofItems items
  | .map entries => ofEntries entries
  | scalar => ofScalar scalar

end Field

/-- The fields declared behind a key of a declaration; none when it is missing. -/
def Metadata.fields (m : Metadata) (key : String) : Noted (List Field) :=
  match m.get? key with
  | none => return []
  | some value => Field.ofValue value

end NotebookService
