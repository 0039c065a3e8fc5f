/-
# `NotebookService.Endpoint.Socket` — WebSocket endpoints

A socket handler registers its connection with the connection manager under a room and a
client, runs a loop, and unregisters when the client goes.  Every other failure is
handed to the manager.  Room and client are those of the request if it binds them, else
the default room and a new client.

An event handler calls the cell's function once for each frame that comes in.  A stream
drains the asynchronous generator that the function returns, again and again, and sends
each item back; when it declares a message, it first waits for a frame, but not longer
than `receiveTimeout`, and passes the latest one on.
-/
import NotebookService.Code.Literal
import NotebookService.Endpoint.Route

namespace NotebookService.Socket

open NotebookService.Code

/-- The seconds that a stream waits for a frame. -/
def receiveTimeout : String := "1.0"

/-! ## Modes -/

inductive Mode where
  | event
  | stream
  deriving DecidableEq, Repr, Inhabited

namespace Mode

def word : Mode → String
  | .event => "event"
  | .stream => "stream"

def ofWord? (word : String) : Option Mode :=
  [Mode.event, .stream].find? fun m => m.word = word

end Mode

/-! ## Endpoints -/

structure Endpoint extends Route where
  mode : Mode
  message : List Field
  /-- Frames are checked against the message before they are passed on. -/
  validate : Bool
  source : String
  deriving DecidableEq, Repr

namespace Endpoint

/-- The mode behind the key `type`; a socket without one handles events. -/
def modeOf (path : String) (m : Metadata) : Noted (Option Mode) :=
  match m.text? "type" with
  | none => return some .event
  | some word =>
    match Mode.ofWord? word with
    | some mode => return some mode
    | none => do
      Noted.note (.socketTypeUnsupported path word)
      return none

/-- The endpoint that a cell declares; none when its mode is unknown. -/
def ofMetadata (path : String) (m : Metadata) (source : String) :
    Noted (Option Endpoint) := do
  match ← modeOf path m with
  | none => return none
  | some mode =>
    let message ← m.fields "message"
    let query ← m.fields "query"
    let headers ← m.fields "headers"
    let validate := (m.bool? "validate").getD false
    return some { path, query, headers, mode, message, validate, source }

/-- The names that the request binds, each once. -/
def boundNames (e : Endpoint) : List String :=
  fresh [] (e.pathParams ++ e.queryNames ++ e.headerNames)

/-- Frames are read as the message before the function sees them. -/
def validates (e : Endpoint) : Bool :=
  e.mode = .stream && !e.message.isEmpty && e.validate

/-! ## Remarks -/

/-- The function is given a frame as its first argument. -/
def takesInput (e : Endpoint) : Bool := e.mode = .event || !e.message.isEmpty

def check (e : Endpoint) (s : Signature) : Noted Unit := do
  noteMissing s e.boundNames
  if e.takesInput && s.params.isEmpty then Noted.note (.inputUntaken s.name)
  if e.mode = .stream && !s.isAsync then Noted.note (.streamNotAsync s.name)
  if e.mode = .event && !e.message.isEmpty then Noted.note .messageIgnored

/-! ## The handler -/

def messageModel (s : Signature) : String := className s.name ++ "Message"

/-- The default room and a new client, where the request binds neither. -/
def identity (e : Endpoint) : List Statement :=
  (if "room_id" ∈ e.boundNames then [] else [.line "room_id = 'default'"]) ++
    (if "client_id" ∈ e.boundNames then [] else [.line "client_id = str(uuid.uuid4())"])

/-- A call of the function, with a frame in front of the bound names when there is one. -/
def call (e : Endpoint) (s : Signature) (first : Option String) : String :=
  s.name ++ "(" ++
    ", ".intercalate (first.toList ++ e.boundNames.map fun n => n ++ "=" ++ n) ++ ")"

def connecting : Statement := .line "await manager.connect(websocket, room_id, client_id)"

def eventLoop (e : Endpoint) (s : Signature) : List Statement :=
  [ .block "while True"
      [ .line "event_data = await websocket.receive_text()",
        .line ("response = " ++ s.awaiting ++ e.call s (some "event_data")),
        .block "if response is not None"
          [.line "await manager.parse_and_send_message(response)"] ] ]

/-- The items of one pass over the function's generator. -/
def drain (e : Endpoint) (s : Signature) (first : Option String) : Statement :=
  .block ("async for data in " ++ e.call s first) [.line "yield data"]

/-- What becomes of a frame: it is read as the message, or kept as text. -/
def acceptInput (e : Endpoint) (s : Signature) : List Statement :=
  if e.validates then
    [ .block "try"
        [.line ("user_input = " ++ messageModel s ++
          ".model_validate_json(new_input).model_dump()")],
      .block "except ValidationError as e"
        [ .line ("error = json.dumps(\x7b'error': 'validation_error', " ++
            "'detail': json.loads(e.json())\x7d)"),
          .line "await manager.send_message(error, room_id, client_id)",
          .line "continue" ] ]
  else [.line "user_input = new_input"]

/-- The generator that drives the function. -/
def streamBody (e : Endpoint) (s : Signature) : List Statement :=
  if e.message.isEmpty then [.block "while True" [e.drain s none]]
  else
    [ .line ("user_input = " ++ if e.validates then "\x7b\x7d" else "''"),
      .block "while True"
        [ .block "try"
            (.line
              ("new_input = await asyncio.wait_for(websocket.receive_text(), timeout=" ++
                receiveTimeout ++ ")") :: e.acceptInput s),
          .block "except asyncio.TimeoutError" [.line "pass"],
          e.drain s (some "user_input") ] ]

def streamFunction (e : Endpoint) (s : Signature) : Statement :=
  .function ⟨[], true, "_stream", []⟩ (e.streamBody s)

/-- A loop that ends with its connection. -/
def guarded (body : List Statement) : List Statement :=
  [ .block "try" body,
    .block "except WebSocketDisconnect" [.line "manager.disconnect(websocket, room_id)"],
    .block "except Exception as e"
      [ .line "manager.disconnect(websocket, room_id)",
        .line "await manager.handle_error(websocket, e)" ] ]

def handlerBody (e : Endpoint) (s : Signature) : List Statement :=
  e.identity ++
    match e.mode with
    | .event => connecting :: guarded (e.eventLoop s)
    | .stream =>
      e.streamFunction s :: .blank :: connecting ::
        guarded
          [ .block "async for data in _stream()"
              [.line "await manager.send_message(json.dumps(data), room_id, client_id)"] ]

def parameters (e : Endpoint) : List Param :=
  .typed "websocket" "WebSocket" :: (e.pathParameters ++ e.requestParameters)

def handler (e : Endpoint) (s : Signature) : Statement :=
  .function
    ⟨["router.websocket(" ++ literal e.path ++ ")"], true,
      s.name ++ "_websocket", e.parameters⟩
    (e.handlerBody s)

/-- The code of the endpoint; none when the cell defines no function. -/
def generate (e : Endpoint) : Noted (Option (List Statement)) :=
  match Signature.ofSource? e.source with
  | none => do
    Noted.note (.skipped
      (.invalid ("websocket " ++ e.path ++ ": no function definition found")))
    return none
  | some s => do
    e.check s
    return some ((if e.validates then [.model (messageModel s) e.message] else []) ++
      [e.handler s, .verbatim e.source])

end Endpoint

end NotebookService.Socket
