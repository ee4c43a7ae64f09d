import MiniDht.Session.Message

/-!
# Sessions

`session`, and how `miniDHT` uses it: a session counts what holds on to it, and deletes
itself when a failed completion brings the count to zero. What comes back from the network
are the completions of outstanding operations, in any order. A handler may be called for a
session that has been deleted. It is followed as if the memory still held what it held.
-/

namespace MiniDht

/-- What a session waits for. -/
inductive Op where
  | connect
  | readHeader
  | readBody
  /-- `got_message_callback_` has been called and has not returned. -/
  | message
  | write
  deriving DecidableEq

/-- What is seen of a session. -/
inductive Notice where
  /-- `got_message_callback_` is called. -/
  | message (ep : Endpoint) (m : BasicMessage)
  /-- `got_disconnected_callback_` is called. -/
  | disconnected (ep : Endpoint)
  /-- `async_write` is called. -/
  | write (m : BasicMessage)
  deriving DecidableEq

theorem unspecified_printed : "0.0.0.0" ≠ "" := by decide

/-- The endpoint a default constructor makes. -/
def unspecified : Endpoint := { address := "0.0.0.0", port := 0, printed := unspecified_printed }

/-- Class `session`. `remote` is the endpoint at the other end of `socket_`, and `pending`
the operations that have been started and are not complete. -/
structure Session where
  remote : Endpoint
  ep : Endpoint := unspecified
  readMsg : BasicMessage := {}
  writeMsgs : List BasicMessage := []
  connect : Bool := false
  refCount : Int := 1
  pending : List Op := []
  log : List Notice := []
  deleted : Bool := false
  deriving DecidableEq

namespace Session

/-- `start()`, where `remote_endpoint()` does not throw. -/
def start (s : Session) : Session :=
  { s with
    ep := if s.connect then s.ep else s.remote
    refCount := s.refCount + 1
    pending := .readHeader :: s.pending }

/-- `connect(ep)`. -/
def connectTo (s : Session) (ep : Endpoint) : Session :=
  { s with
    connect := true
    ep := ep
    refCount := s.refCount + 1
    pending := .connect :: s.pending }

/-- `async_write` of a message. -/
def write (s : Session) (m : BasicMessage) : Session :=
  { s with
    refCount := s.refCount + 1
    pending := .write :: s.pending
    log := s.log ++ [.write m] }

/-- `deliver(msg)`. -/
def deliver (s : Session) (msg : BasicMessage) : Session :=
  let writeInProgress := !s.writeMsgs.isEmpty
  let s := { s with writeMsgs := s.writeMsgs ++ [msg] }
  if writeInProgress then s else s.write msg

/-- `ref_count_ -= 1`. -/
def drop (s : Session) : Session :=
  { s with refCount := s.refCount - 1 }

/-- `got_disconnected_callback_(ep_)`. -/
def disconnected (s : Session) : Session :=
  { s with log := s.log ++ [.disconnected s.ep] }

/-- The sixteen bytes of a header, or what comes of an error. -/
abbrev HeaderBytes := Option { bytes : List UInt8 // bytes.length = headerLength }

/-- `decode_header()` of what has been read. -/
def decoded (packetSize : Nat) (s : Session) (bytes : List UInt8) : Bool × Session :=
  let read := { s.readMsg with header := bytes }.decodeHeader packetSize
  (read.1, { s with readMsg := read.2 })

/-- The endpoint a session is known under: a peer that has connected announces a port of its
own. `none` is what `remote_endpoint()` throws once the peer is gone. -/
def announced (s : Session) (attached : Bool) : Option Endpoint :=
  if s.connect then some s.ep
  else if attached then some { s.remote with port := s.readMsg.listenPort }
  else none

/-- The `try` block of `handle_read_header` up to the registry. An error is an exception. -/
def headerRead (packetSize : Nat) (s : Session) (bytes : HeaderBytes) (attached : Bool) :
    Except Session Session :=
  match bytes with
  | none => .error s
  | some bytes =>
    let read := s.decoded packetSize bytes
    if read.1 then
      match read.2.announced attached with
      | none => .error read.2
      | some ep => .ok { read.2 with ep := ep }
    else .error read.2

/-- `async_read` of a body. -/
def readBody (s : Session) : Session :=
  { s with refCount := s.refCount + 1, pending := .readBody :: s.pending }

/-- The first half of `handle_read_body`: `got_message_callback_` is called. -/
def bodyRead (s : Session) (body : List UInt8) : Session :=
  let s := { s with readMsg := { s.readMsg with body := body } }
  { s with pending := .message :: s.pending, log := s.log ++ [.message s.ep s.readMsg] }

/-- The second half of `handle_read_body`, which an exception of the callback skips. -/
def messageHandled (s : Session) (threw : Bool) : Session :=
  if threw then s
  else { s with refCount := s.refCount + 1, pending := .readHeader :: s.pending }

/-- `handle_write` without an error. -/
def written (s : Session) : Session :=
  match s.writeMsgs.tail with
  | [] => { s with writeMsgs := [] }
  | m :: rest => { s with writeMsgs := m :: rest }.write m

end Session

/-- All sessions there have been, and `map_ep_proto_session`, which points into them. -/
structure Registry where
  sessions : List Session := []
  mapEpProtoSession : EndpointProto → Option Nat := fun _ => none

/-- What happens to the sessions of a node: completions, and what `miniDHT` does. -/
inductive Arrival where
  /-- `handle_accept`. After an error, or where the peer is gone again and `start` throws,
  the session is not started. -/
  | accepted (remote : Endpoint) (attached : Bool)
  /-- `send_MESSAGE(m, epp)`, with the endpoint that resolves and the serialized message. -/
  | sent (uep : Endpoint) (listenPort : UInt16) (bytes : List UInt8)
  | connected (i : Nat) (error : Bool)
  /-- A header has been read, or could not be. -/
  | header (i : Nat) (bytes : Session.HeaderBytes) (attached : Bool)
  /-- A body has been read, or could not be. -/
  | body (i : Nat) (bytes : Option (List UInt8))
  /-- `got_message_callback_` has returned or thrown. -/
  | handled (i : Nat) (threw : Bool)
  | written (i : Nat) (error : Bool)
  deriving DecidableEq

namespace Registry

/-- The memory of a session changes. -/
def put (r : Registry) (i : Nat) (s : Session) : Registry :=
  { r with sessions := r.sessions.set i s }

/-- `release()`. -/
def release (r : Registry) (i : Nat) (s : Session) : Registry :=
  let s := s.drop
  if s.refCount ≤ 0 then
    { sessions := r.sessions.set i { s with deleted := true }
      mapEpProtoSession := Function.update r.mapEpProtoSession s.ep.proto none }
  else r.put i s

/-- `handle_accept`, and `start()` of the session. -/
def handleAccept (r : Registry) (remote : Endpoint) (attached : Bool) : Registry :=
  let s : Session := { remote := remote }
  { r with sessions := r.sessions ++ [if attached then s.start else s] }

/-- `send_MESSAGE(m, epp)`, from the look-up of the session on. -/
def sendMessage (r : Registry) (uep : Endpoint) (msg : BasicMessage) : Registry :=
  match r.mapEpProtoSession uep.proto with
  | none =>
    let s : Session := { remote := uep }
    { r with sessions := r.sessions ++ [(s.connectTo uep).deliver msg] }
  | some i =>
    match r.sessions[i]? with
    | none => r
    | some s => r.put i (s.deliver msg)

/-- `handle_connect`. -/
def handleConnect (r : Registry) (i : Nat) (s : Session) (error : Bool) : Registry :=
  let s := s.drop
  if error then r.release i s else r.put i s.start

/-- The session is put under its endpoint, in the place of any other. -/
def enter (r : Registry) (i : Nat) (key : EndpointProto) : Registry :=
  match r.mapEpProtoSession key with
  | none => { r with mapEpProtoSession := Function.update r.mapEpProtoSession key (some i) }
  | some j =>
    if j = i then r
    else
      let erased := Function.update r.mapEpProtoSession key none
      { r with mapEpProtoSession := Function.update erased key (some i) }

/-- `handle_read_header`. -/
def handleReadHeader (packetSize : Nat) (r : Registry) (i : Nat) (s : Session)
    (bytes : Session.HeaderBytes) (attached : Bool) : Registry :=
  match s.drop.headerRead packetSize bytes attached with
  | .error s => r.release i s.disconnected
  | .ok s => (r.put i s.readBody).enter i s.ep.proto

/-- `handle_read_body`, up to the call of `got_message_callback_`. -/
def handleReadBody (r : Registry) (i : Nat) (s : Session) (bytes : Option (List UInt8)) : Registry :=
  let s := s.drop
  match bytes with
  | none => r.release i s
  | some bytes => r.put i (s.bodyRead bytes)

/-- `handle_write`. -/
def handleWrite (r : Registry) (i : Nat) (s : Session) (error : Bool) : Registry :=
  let s := s.drop
  if error then r.release i s else r.put i s.written

/-- The session an operation of which is complete. -/
def completes (r : Registry) (i : Nat) (op : Op) : Option Session :=
  match r.sessions[i]? with
  | none => none
  | some s => if op ∈ s.pending then some { s with pending := s.pending.erase op } else none

/-- What comes of an arrival. There is none of an operation that is not outstanding, and a
body has the length that was asked for. -/
def step (packetSize : Nat) (r : Registry) : Arrival → Option Registry
  | .accepted remote attached => some (r.handleAccept remote attached)
  | .sent uep listenPort bytes =>
    some (r.sendMessage uep (.frame packetSize listenPort bytes))
  | .connected i error => do
    let s ← r.completes i .connect
    return r.handleConnect i s error
  | .header i bytes attached => do
    let s ← r.completes i .readHeader
    return r.handleReadHeader packetSize i s bytes attached
  | .body i bytes => do
    let s ← r.completes i .readBody
    guard (∀ b ∈ bytes, b.length = s.readMsg.bodyLength)
    return r.handleReadBody i s bytes
  | .handled i threw => do
    let s ← r.completes i .message
    return r.put i (s.messageHandled threw)
  | .written i error => do
    let s ← r.completes i .write
    return r.handleWrite i s error

end Registry

end MiniDht
