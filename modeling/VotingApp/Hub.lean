import VotingApp.Lib.GoText

/-!
hub.go and client.go. The hub loop takes registrations, removals and broadcasts
one at a time; every client has a bounded send channel that its writePump drains
into text frames. What was put on a channel is kept as a history.
-/
namespace WsHub
open GoText

inductive Origin where
  | snapshot
  | broadcast
  deriving DecidableEq, Repr

structure Put where
  origin : Origin
  data : Str
  deriving DecidableEq, Repr

/-- Where writePump stands: a frame is opened with one message, then the queued messages
are counted, and as many are flushed into it. -/
inductive Pump where
  | unstarted
  | idle
  | opened (frame : Str)
  | flushing (left : Nat) (frame : Str)
  | stopped
  deriving DecidableEq, Repr

structure Client where
  inHub : Bool := false
  buffer : List Str := []
  closed : Bool := false
  pump : Pump := .unstarted
  sent : List Put := []
  frames : List Str := []
  deriving DecidableEq, Repr

structure Hub where
  queue : List Str := []
  clients : List Client := []
  panicked : Bool := false
  deriving DecidableEq, Repr

def channelSize : Nat := 256

def Client.put (origin : Origin) (msg : Str) (c : Client) : Client :=
  { c with buffer := c.buffer ++ [msg], sent := c.sent ++ [⟨origin, msg⟩] }

def Client.close (c : Client) : Client := { c with inHub := false, closed := true }

/- The select of the broadcast loop: a full buffer disconnects the client. -/
def Client.offer (msg : Str) (c : Client) : Client :=
  if c.buffer.length < channelSize then c.put .broadcast msg else c.close

/- One pass of the loop in writePump, cut where the hub can come between. -/
def Client.pumpStep (c : Client) : Option Client :=
  match c.pump, c.buffer with
  | .unstarted, _ => none
  | .stopped, _ => none
  | .idle, [] => if c.closed then some { c with pump := .stopped } else none
  | .idle, msg :: rest => some { c with buffer := rest, pump := .opened msg }
  | .opened frame, queued => some { c with pump := .flushing queued.length frame }
  | .flushing 0 frame, _ => some { c with frames := c.frames ++ [frame], pump := .idle }
  | .flushing (n + 1) frame, msg :: rest =>
    some { c with buffer := rest, pump := .flushing n (frame ++ '\n' :: msg) }
  | .flushing (_ + 1) _, [] => none

/- A failed write ends the pump and closes the connection. -/
def Client.pumpFail (c : Client) : Option Client :=
  match c.pump with
  | .unstarted => none
  | _ => some { c with pump := .stopped }

def Hub.send (h : Hub) (msg : Str) : Option Hub :=
  if h.queue.length < channelSize then some { h with queue := h.queue ++ [msg] } else none

def Hub.register (h : Hub) : Hub := { h with clients := h.clients ++ [{ inHub := true }] }

def Hub.registered (h : Hub) : List Nat :=
  (List.range h.clients.length).filter fun i => (h.clients[i]?.map Client.inHub).getD false

def Hub.change (h : Hub) (id : Nat) (c : Client) : Hub := { h with clients := h.clients.set id c }

def Hub.sendToOne (h : Hub) (id : Nat) (msg : Str) : Hub :=
  match h.clients[id]? with
  | none => h
  | some c =>
    if c.closed then { h with panicked := true }
    else if c.buffer.length < channelSize then h.change id (c.put .snapshot msg)
    else h

def Hub.startPumps (h : Hub) (id : Nat) : Hub :=
  match h.clients[id]? with
  | none => h
  | some c => h.change id { c with pump := .idle }

/- Removal on the word of readPump, which runs once the pumps are started. -/
def Hub.unregister (h : Hub) (id : Nat) : Option Hub :=
  match h.clients[id]? with
  | none => none
  | some c =>
    if c.pump = .unstarted then none
    else if c.inHub then
      if c.closed then some { h with panicked := true } else some (h.change id c.close)
    else some h

def Hub.offer (msg : Str) (h : Hub) (id : Nat) : Hub :=
  match h.clients[id]? with
  | none => h
  | some c => if c.closed then { h with panicked := true } else h.change id (c.offer msg)

/- A map is ranged over in any order. -/
def Hub.broadcast (h : Hub) (order : List Nat) : Option Hub :=
  match h.queue with
  | [] => none
  | msg :: rest =>
    if order.isPerm h.registered then some (order.foldl (Hub.offer msg) { h with queue := rest })
    else none

def Hub.pump (h : Hub) (id : Nat) (move : Client → Option Client) : Option Hub :=
  h.clients[id]?.bind fun c => (move c).map (h.change id)

end WsHub
