/-
# `NotebookService.Endpoint.Http` — HTTP endpoints

An HTTP cell compiles, in this order, to a model of its request body and a model of its
response, as far as it declares them, to a routed handler, and to its own code.  The
handler passes the values of the request to the cell's function by name and turns its
exceptions into HTTP errors.
-/
import NotebookService.Code.Literal
import NotebookService.Endpoint.Route

namespace NotebookService.Http

open NotebookService.Code

/-! ## Verbs -/

inductive Verb where
  | get
  | post
  | put
  | delete
  | patch
  deriving DecidableEq, Repr, Inhabited

namespace Verb

def all : List Verb := [.get, .post, .put, .delete, .patch]

/-- The verb as it is written in a cell. -/
def word : Verb → String
  | .get => "GET"
  | .post => "POST"
  | .put => "PUT"
  | .delete => "DELETE"
  | .patch => "PATCH"

/-- The router's method for the verb. -/
def method : Verb → String
  | .get => "get"
  | .post => "post"
  | .put => "put"
  | .delete => "delete"
  | .patch => "patch"

def ofWord? (word : String) : Option Verb := all.find? fun v => v.word = word

end Verb

/-! ## Endpoints -/

structure Endpoint extends Route where
  verb : Verb
  body : List Field
  resp : List Field
  source : String
  deriving DecidableEq, Repr

namespace Endpoint

/-- The endpoint that a cell declares. -/
def ofMetadata (verb : Verb) (path : String) (m : Metadata) (source : String) :
    Noted Endpoint := do
  let body ← m.fields "body"
  let resp ← m.fields "resp"
  let query ← m.fields "query"
  let headers ← m.fields "headers"
  return { path, query, headers, verb, body, resp, source }

def bodyNames (e : Endpoint) : List String := e.body.map Field.name

/-- All the names that the function is called with. -/
def declaredNames (e : Endpoint) : List String :=
  e.bodyNames ++ e.queryNames ++ e.headerNames ++ e.pathParams

/-! ## The handler -/

def requestModel (s : Signature) : String := className s.name ++ "RequestBody"

def responseModel (s : Signature) : String := className s.name ++ "ResponseModel"

/-- The decorator that routes requests to the handler. -/
def router (e : Endpoint) (s : Signature) : String :=
  "router." ++ e.verb.method ++ "(" ++ literal e.path ++
    (if e.resp.isEmpty then "" else ", response_model=" ++ responseModel s) ++ ")"

def parameters (e : Endpoint) (s : Signature) : List Param :=
  e.pathParameters ++ (if e.body.isEmpty then [] else [.typed "body" (requestModel s)]) ++
    e.requestParameters

/-- The names that the function is called with beside those of the body. -/
def requestNames (e : Endpoint) : List String :=
  fresh e.bodyNames (e.queryNames ++ e.pathParams ++ e.headerNames)

/-- The arguments of the call: a field of the body is read from the model. -/
def arguments (e : Endpoint) : List String :=
  e.bodyNames.map (fun n => n ++ "=body." ++ n) ++ e.requestNames.map fun n =>
    n ++ "=" ++ n

def call (e : Endpoint) (s : Signature) : String :=
  "return " ++ s.awaiting ++ s.name ++ "(" ++ ", ".intercalate e.arguments ++ ")"

/-- The call, with exceptions turned into HTTP errors: those of the framework
pass, one that brings a status and a message keeps them, and any other becomes
an internal error. -/
def handlerBody (e : Endpoint) (s : Signature) : List Statement :=
  [ .block "try" [.line (e.call s)],
    .block "except HTTPException" [.line "raise"],
    .block "except Exception as e"
      [ .block "if hasattr(e, 'status_code') and hasattr(e, 'message')"
          [.line
            "raise HTTPException(status_code=e.status_code, detail=f'\x7be.message\x7d')"],
        .block "else"
          [.line
            "raise HTTPException(status_code=500, detail=f'Internal Server Error: \x7bstr(e)\x7d')"]
      ] ]

def handler (e : Endpoint) (s : Signature) : Statement :=
  .function ⟨[e.router s], true, s.name ++ "_endpoint", e.parameters s⟩ (e.handlerBody s)

def models (e : Endpoint) (s : Signature) : List Statement :=
  (if e.body.isEmpty then [] else [.model (requestModel s) e.body]) ++
    (if e.resp.isEmpty then [] else [.model (responseModel s) e.resp])

/-- The code of the endpoint; none when the cell defines no function. -/
def generate (e : Endpoint) : Noted (Option (List Statement)) :=
  match Signature.ofSource? e.source with
  | none => do
    Noted.note (.skipped (.invalid (e.verb.word ++ " " ++ e.path ++
      ": no function definition found")))
    return none
  | some s => do
    noteMissing s e.declaredNames
    return some (e.models s ++ [e.handler s, .verbatim e.source])

end Endpoint

end NotebookService.Http
