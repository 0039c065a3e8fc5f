/-
# `NotebookService.Proofs.Cell.Suites` — empty suites in the code of a cell

Every header that an endpoint or a job writes has a statement below it that stands
further in, with three exceptions: the wrapper of a job whose body is comments, a model
all of whose fields are named like comments, and a model that after comments first holds
what a line feed in a name or a type has broken off, at a column of its own.  All come
about the same way: a header gets its `pass` when there is no field and no statement to
put below it, and here there is one, but it is laid out as comments or elsewhere.

The handlers themselves are never in question.  Each of their blocks begins with a line
whose first word the generator writes, whatever names and paths come after it.
-/
import NotebookService.Proofs.Cell.Outcome
import NotebookService.Proofs.Code.Suites
import NotebookService.Proofs.Endpoint.Names
import NotebookService.Proofs.Metadata.Scalar

namespace NotebookService

open NotebookService.Text NotebookService.Code NotebookService.Metadata

/-! ## Handlers and wrappers -/

namespace Http.Endpoint

variable (e : Endpoint)

theorem wellOpened_handler (s : Signature) : (e.handler s).wellOpened = true := by
  have hcall : leads (e.call s).toList = true :=
    leads_toList_append _
      (leads_toList_append _ (leads_toList_append _ (leads_toList_append _
      (leads_toList_append _ (leads_literal rfl)))))
  refine wellOpened_function (bodyLeads_block (leads_literal rfl)) ?_
  refine allWellOpened_cons (wellOpened_block_line (leads_literal rfl) hcall) ?_
  refine allWellOpened_cons
    (wellOpened_block_line (leads_literal rfl) (leads_literal rfl)) ?_
  refine allWellOpened_cons
    (wellOpened_block (leads_literal rfl) (bodyLeads_block (leads_literal rfl)) ?_) rfl
  refine allWellOpened_cons
    (wellOpened_block_line (leads_literal rfl) (leads_literal rfl)) ?_
  exact allWellOpened_cons
    (wellOpened_block_line (leads_literal rfl) (leads_literal rfl)) rfl

end Http.Endpoint

namespace Socket.Endpoint

variable (e : Endpoint) (s : Signature)

/-- Whatever of room and client is set first, a body that leads with
code still does so. -/
theorem bodyLeads_identity_append {body : List Statement} (h : bodyLeads body = true) :
    bodyLeads (e.identity ++ body) = true := by
  rw [identity]
  split
  · split
    · exact h
    · exact bodyLeads_line (leads_literal rfl)
  · exact bodyLeads_line (leads_literal rfl)

theorem allWellOpened_identity : allWellOpened e.identity = true := by
  rw [identity]
  split <;> split <;> rfl

theorem allWellOpened_guarded {body : List Statement} (hl : bodyLeads body = true)
    (hb : allWellOpened body = true) : allWellOpened (guarded body) = true := by
  refine allWellOpened_cons (wellOpened_block (leads_literal rfl) hl hb) ?_
  refine allWellOpened_cons
    (wellOpened_block_line (leads_literal rfl) (leads_literal rfl)) ?_
  exact allWellOpened_cons
    (wellOpened_block (leads_literal rfl) (bodyLeads_line (leads_literal rfl)) rfl) rfl

theorem bodyLeads_eventLoop : bodyLeads (e.eventLoop s) = true :=
  bodyLeads_block (leads_literal rfl)

theorem allWellOpened_eventLoop : allWellOpened (e.eventLoop s) = true := by
  refine allWellOpened_cons
    (wellOpened_block (leads_literal rfl) (bodyLeads_line (leads_literal rfl)) ?_) rfl
  refine allWellOpened_cons rfl (allWellOpened_cons rfl (allWellOpened_cons ?_ rfl))
  exact wellOpened_block_line (leads_literal rfl) (leads_literal rfl)

theorem leads_drainHeader (first : Option String) :
    leads ("async for data in " ++ e.call s first).toList = true :=
  leads_toList_append _ (leads_literal rfl)

theorem wellOpened_drain (first : Option String) : (e.drain s first).wellOpened = true :=
  wellOpened_block_line (e.leads_drainHeader s first) (leads_literal rfl)

theorem allWellOpened_acceptInput : allWellOpened (e.acceptInput s) = true := by
  rw [acceptInput]
  split
  · have hinput : leads ("user_input = " ++ messageModel s ++
        ".model_validate_json(new_input).model_dump()").toList = true :=
      leads_toList_append _ (leads_toList_append _ (leads_literal rfl))
    have herror : leads ("error = json.dumps(\x7b'error': 'validation_error', " ++
        "'detail': json.loads(e.json())\x7d)").toList = true :=
      leads_toList_append _ (leads_literal rfl)
    refine allWellOpened_cons (wellOpened_block_line (leads_literal rfl) hinput) ?_
    exact allWellOpened_cons
      (wellOpened_block (leads_literal rfl) (bodyLeads_line herror) rfl) rfl
  · rfl

theorem wellOpened_streamFunction : (e.streamFunction s).wellOpened = true := by
  rw [streamFunction, streamBody]
  split
  · refine wellOpened_function (bodyLeads_block (leads_literal rfl))
      (allWellOpened_cons ?_ rfl)
    exact wellOpened_block (leads_literal rfl)
      (bodyLeads_block (e.leads_drainHeader s none))
      (allWellOpened_cons (e.wellOpened_drain s none) rfl)
  · have hfirst (start : String) : leads ("user_input = " ++ start).toList = true :=
      leads_toList_append _ (leads_literal rfl)
    have hinput : leads
      ("new_input = await asyncio.wait_for(websocket.receive_text(), timeout=" ++
        receiveTimeout ++ ")").toList = true :=
      leads_toList_append _ (leads_toList_append _ (leads_literal rfl))
    refine wellOpened_function (bodyLeads_line (hfirst _)) (allWellOpened_cons rfl ?_)
    refine allWellOpened_cons
      (wellOpened_block (leads_literal rfl) (bodyLeads_block (leads_literal rfl)) ?_) rfl
    refine allWellOpened_cons
      (wellOpened_block (leads_literal rfl) (bodyLeads_line hinput)
        (allWellOpened_cons rfl (e.allWellOpened_acceptInput s))) ?_
    refine allWellOpened_cons
      (wellOpened_block_line (leads_literal rfl) (leads_literal rfl)) ?_
    exact allWellOpened_cons (e.wellOpened_drain s _) rfl

theorem wellOpened_handler : (e.handler s).wellOpened = true := by
  refine wellOpened_function (e.bodyLeads_identity_append ?_)
    (allWellOpened_append e.allWellOpened_identity ?_)
  · cases e.mode with
    | event => exact bodyLeads_line (leads_literal rfl)
    | stream => rfl
  · cases e.mode with
    | event =>
        exact allWellOpened_cons rfl
          (allWellOpened_guarded (e.bodyLeads_eventLoop s) (e.allWellOpened_eventLoop s))
    | stream =>
        refine allWellOpened_cons (e.wellOpened_streamFunction s)
          (allWellOpened_cons rfl (allWellOpened_cons rfl ?_))
        refine allWellOpened_guarded (bodyLeads_block (leads_literal rfl))
          (allWellOpened_cons ?_ rfl)
        exact wellOpened_block_line (leads_literal rfl) (leads_literal rfl)

end Socket.Endpoint

/-- The items that were generated for a cell; one that came through as it is has none. -/
def CompiledCell.items : CompiledCell → List Statement
  | .code _ => []
  | .http items | .socket items | .scheduled items => items

theorem CompiledCell.render_eq {cell : CompiledCell} {s : Statement}
    (h : s ∈ cell.items) :
    cell.render = Code.render cell.items := by
  cases cell with
  | code _ => cases h
  | http _ => rfl
  | socket _ => rfl
  | scheduled _ => rfl

end NotebookService
