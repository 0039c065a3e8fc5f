/-
# `NotebookService.Endpoint.Route` — what a request brings in by name

An endpoint is reached under a path and takes values from three places: the path itself,
whose segments `/{name}` are parameters, the query and the headers.  A name that is
declared in two places is taken from the first of them.

`fresh` keeps the first of each name; the parameters of a handler and the arguments that
it passes on are both made with it.
-/
import NotebookService.Code.Statement
import NotebookService.Signature

namespace NotebookService

open NotebookService.Text

/-! ## First declarations -/

/-- The items whose key is neither among `seen` nor that of an earlier item. -/
def freshBy {α : Type} (key : α → String) (seen : List String) : List α → List α
  | [] => []
  | x :: xs =>
    if key x ∈ seen then freshBy key seen xs
    else x :: freshBy key (key x :: seen) xs

theorem mem_map_freshBy {α : Type} (key : α → String) (seen : List String) (xs : List α)
    (k : String) : k ∈ (freshBy key seen xs).map key ↔ k ∈ xs.map key ∧ k ∉ seen := by
  induction xs generalizing seen with
  | nil => simp [freshBy]
  | cons x xs ih =>
    simp only [freshBy]
    split
    · rw [ih]
      grind
    · rw [List.map_cons, List.mem_cons, ih]
      grind

theorem nodup_map_freshBy {α : Type} (key : α → String) (seen : List String)
    (xs : List α) :
    ((freshBy key seen xs).map key).Nodup := by
  induction xs generalizing seen with
  | nil => simp [freshBy]
  | cons x xs ih =>
    simp only [freshBy]
    split
    · exact ih seen
    · rw [List.map_cons, List.nodup_cons, mem_map_freshBy]
      exact ⟨by simp, ih _⟩

/-- Names that are new, each once. -/
def fresh (seen names : List String) : List String := freshBy id seen names

/-! ## Path parameters -/

/-- The names of the segments `/{name}`, from left to right.  A name is a run of word
characters; braces around anything else are part of the path. -/
def pathNames : List Char → List (List Char)
  | [] => []
  | '/' :: '{' :: s =>
    let name := s.takeWhile isWordChar
    match _h : s.dropWhile isWordChar with
    | '}' :: rest => if name.isEmpty then pathNames s else name :: pathNames rest
    | _ => pathNames s
  | _ :: s => pathNames s
termination_by s => s.length
decreasing_by
  · simp only [List.length_cons]
    omega
  · have := congrArg List.length _h
    have h := (List.dropWhile_sublist (l := s) isWordChar).length_le
    simp only [List.length_cons] at this ⊢
    omega
  · simp only [List.length_cons]
    omega
  · simp only [List.length_cons]
    omega

/-- The names of a path's parameters. -/
def pathParams (path : String) : List String := (pathNames path.toList).map String.ofList

/-! ## Routes -/

structure Route where
  path : String
  query : List Field
  headers : List Field
  deriving DecidableEq, Repr

namespace Route

/-- The names that the path binds. -/
def pathParams (r : Route) : List String := NotebookService.pathParams r.path

def queryNames (r : Route) : List String := r.query.map Field.name

def headerNames (r : Route) : List String := r.headers.map Field.name

/-- The handler's parameters for the path, which always brings text. -/
def pathParameters (r : Route) : List Code.Param :=
  r.pathParams.map fun n => .typed n "str"

/-- The handler's parameters for the query and the headers. -/
def requestParameters (r : Route) : List Code.Param :=
  (freshBy Field.name r.pathParams r.query).map .ofField ++
    (freshBy Field.name (r.pathParams ++ r.queryNames) r.headers).map .ofHeader

end Route

/-! ## Agreement with the function -/

/-- The declared names that a function does not take, each once. -/
def missingNames (s : Signature) (declared : List String) : List String :=
  fresh [] (declared.filter fun n => !s.hasParam n)

/-- The remark that a function does not take all of the declared names. -/
def noteMissing (s : Signature) (declared : List String) : Noted Unit :=
  let missing := missingNames s declared
  if missing.isEmpty then return () else Noted.note (.argumentsMissing s.name missing)

/-- What stands in front of a call of the function. -/
def Signature.awaiting (s : Signature) : String := if s.isAsync then "await " else ""

end NotebookService
