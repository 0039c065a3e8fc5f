/-
# `NotebookService.Project.SupportModule` — the module that compiled sockets use

Compiled WebSocket handlers talk to one object, `manager`, and every build puts the
module that defines it beside the compiled notebooks.  It keeps the same rooms as
`NotebookService.Registry`: the same default room, the same close code, and one room and
id for each socket.
-/
import NotebookService.Code.Literal
import NotebookService.Registry.Basic
import NotebookService.Registry.Fault

namespace NotebookService.Project

def supportModuleName : String := "websocket_manager.py"

def supportModuleLines : List String :=
  ["import json",
   "import uuid",
   "from typing import Any, Dict, Optional",
   "",
   "from fastapi import WebSocket",
   "",
   "DEFAULT_ROOM = " ++ Code.literal Registry.defaultRoom,
   "DEFAULT_CLOSE_CODE = " ++ toString Registry.defaultCloseCode.toNat,
   "",
   "",
   "class ConnectionManager:",
   "    \"\"\"Routes messages to WebSocket clients grouped into rooms.\"\"\"",
   "",
   "    def __init__(self) -> None:",
   "        # room_id -> client_id -> socket",
   "        self.room_connections: Dict[str, Dict[str, WebSocket]] = \x7b\x7d",
   "",
   "    async def connect(self, websocket: WebSocket, room_id: Optional[str] = None, client_id: Optional[str] = None) -> None:",
   "        if room_id is None:",
   "            room_id = DEFAULT_ROOM",
   "        if client_id is None:",
   "            client_id = str(uuid.uuid4())",
   "",
   "        await websocket.accept()",
   "        for key in list(self.room_connections):",
   "            room = self.room_connections[key]",
   "            for stale in [k for k, v in room.items() if v is websocket]:",
   "                room.pop(stale)",
   "            if not room:",
   "                self.room_connections.pop(key)",
   "        self.room_connections.setdefault(room_id, \x7b\x7d)[client_id] = websocket",
   "",
   "    def disconnect(self, websocket: WebSocket, room_id: str = DEFAULT_ROOM) -> None:",
   "        room = self.room_connections.get(room_id, \x7b\x7d)",
   "        client_id = next((k for k, v in room.items() if v is websocket), None)",
   "        if client_id is not None:",
   "            room.pop(client_id)",
   "        if not room:",
   "            self.room_connections.pop(room_id, None)",
   "",
   "    async def send_message(self, message: str, room_id: str = DEFAULT_ROOM, client_id: Optional[str] = None) -> None:",
   "        room = self.room_connections.get(room_id, \x7b\x7d)",
   "        if client_id:",
   "            websocket = room.get(client_id)",
   "            if websocket is not None:",
   "                await websocket.send_text(message)",
   "        else:",
   "            for websocket in list(room.values()):",
   "                await websocket.send_text(message)",
   "",
   "    async def broadcast_all(self, message: str) -> None:",
   "        for room in list(self.room_connections.values()):",
   "            for websocket in list(room.values()):",
   "                await websocket.send_text(message)",
   "",
   "    async def handle_error(self, websocket: WebSocket, e: Exception) -> None:",
   "        message = e.message if hasattr(e, 'message') else str(e)",
   "        status_code = e.status_code if hasattr(e, 'status_code') else DEFAULT_CLOSE_CODE",
   "        try:",
   "            await websocket.send_text(message)",
   "            await websocket.close(code=status_code)",
   "        except Exception:",
   "            pass",
   "",
   "    async def parse_and_send_message(self, message: Any) -> None:",
   "        \"\"\"Send `(data, target)` to a client, a room, or both; anything else to everyone.\"\"\"",
   "        if isinstance(message, tuple) and len(message) == 2:",
   "            data, target = message",
   "            payload = json.dumps(data)",
   "",
   "            if isinstance(target, (str, int)):",
   "                await self.send_message(payload, client_id=str(target))",
   "            elif isinstance(target, dict):",
   "                client_id = target.get('client_id')",
   "                room_id = target.get('room_id')",
   "                if client_id and room_id:",
   "                    await self.send_message(payload, str(room_id), str(client_id))",
   "                elif room_id:",
   "                    await self.send_message(payload, str(room_id))",
   "                elif client_id:",
   "                    await self.send_message(payload, client_id=str(client_id))",
   "        else:",
   "            await self.broadcast_all(json.dumps(message))",
   "",
   "",
   "manager: ConnectionManager = ConnectionManager()"]

/-- The text of the module. -/
def supportModule : String := String.join (supportModuleLines.map (· ++ "\n"))

end NotebookService.Project
