/-
# `NotebookService.ServiceModule` — the module made from a notebook

The compiled cells stand behind a fixed preamble, two blank lines apart.  HTTP cells
come last, so that what a route depends on is defined before it; otherwise the order is
that of the notebook.

A cell that fails never ends the compilation.  It is counted, and its diagnostics
say what was wrong.
-/
import NotebookService.Cell

namespace NotebookService

open NotebookService.Text

/-- What every module imports and defines first. -/
def preamble : String :=
  "\n".intercalate
    [ "from fastapi import APIRouter, Header, HTTPException, WebSocket, WebSocketDisconnect",
      "from pydantic import BaseModel, ValidationError",
      "from scheduler import scheduler",
      "from typing import Any, AsyncGenerator, Callable, Dict, List, Optional, Union",
      "import asyncio",
      "import json",
      "import uuid",
      "",
      "from websocket_manager import manager",
      "",
      "",
      "router = APIRouter()",
      "" ]

/-! ## Assembly -/

/-- A compiled cell below what stands above it; a blank one adds nothing. -/
def CompiledCell.part (c : CompiledCell) : List Char :=
  let text := trimEnd c.render.toList
  if text.isEmpty then [] else '\n' :: '\n' :: text ++ ['\n']

/-- The cells in the order of the module. -/
def moduleOrder (cells : List CompiledCell) : List CompiledCell :=
  cells.filter (fun c => !c.isHttp) ++ cells.filter CompiledCell.isHttp

def assemble (cells : List CompiledCell) : String :=
  String.ofList (preamble.toList ++ (moduleOrder cells).flatMap CompiledCell.part)

/-! ## Notebooks -/

/-- What became of one cell of a notebook. -/
structure CellResult where
  outcome : Outcome
  diagnostics : List Diagnostic
  deriving Repr

namespace CellResult

def compiled? (r : CellResult) : Option CompiledCell :=
  match r.outcome with
  | .compiled cell => some cell
  | .ignored | .skipped => none

def isSkipped (r : CellResult) : Bool :=
  match r.outcome with
  | .skipped => true
  | .ignored | .compiled _ => false

end CellResult

/-- The results of cells that are numbered from `index` on, and the number of made-up
names after them, given that before them. -/
def compileCells (index generated : Nat) : List Cell → List CellResult × Nat
  | [] => ([], generated)
  | c :: cs =>
    let result := c.compile generated
    let (results, last) := compileCells (index + 1) result.value.2 cs
    (⟨result.value.1, result.diagnostics index⟩ :: results, last)

/-- The module made from a notebook. -/
structure ServiceModule where
  source : String
  /-- The number of cells that gave code. -/
  compiled : Nat
  /-- The number of cells that should have given code and did not. -/
  skipped : Nat
  /-- All that was said, in the order of the cells. -/
  diagnostics : List Diagnostic
  deriving DecidableEq, Repr

namespace ServiceModule

def ofResults (results : List CellResult) : ServiceModule :=
  let cells := results.filterMap CellResult.compiled?
  { source := assemble cells
    compiled := cells.length
    skipped := results.countP CellResult.isSkipped
    diagnostics := results.flatMap CellResult.diagnostics }

/-- The module of a notebook, and the number of made-up names after it. -/
def compile (cells : List Cell) (generated : Nat) : ServiceModule × Nat :=
  let (results, last) := compileCells 0 generated cells
  (ofResults results, last)

def hasErrors (m : ServiceModule) : Bool := NotebookService.hasErrors m.diagnostics

end ServiceModule

end NotebookService
