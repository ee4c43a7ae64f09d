import MiniDht.Node.State

/-!
# Sending

Requests and replies are built, noted where an answer is expected, and handed to
`send_MESSAGE(m)`, which looks the recipient up in the contact list. Except for a failed
assert nothing that goes wrong on the way out is seen by the caller.
-/

namespace MiniDht

open Lib

namespace Node

/-! ## `send_MESSAGE` -/

/-- `send_MESSAGE(m, epp)`. What the resolver throws is caught. A message too large for
the packet is copied over its end, and the node is followed as if that did no harm. -/
def sendMessageTo (w : World) (m : MessageProto) (epp : EndpointProto) : NodeM Unit := do
  record (.handed m epp)
  Act.ofExcept (assertNamed epp)
  match w.resolve epp with
  | none => return ()
  | some uep =>
    let _ ← Act.ofExcept (endpointToProto uep)
    if maxBodyLength < w.byteSize m then record (.overrun m uep)
    else record (.delivered m uep)

/-- `send_MESSAGE(m)`. -/
def sendMessage (w : World) (m : MessageProto) : NodeM Unit := do
  record (.request m)
  Act.ofExcept (assertThat (m.toId ≠ zeroId))
  let s ← get
  if m.toId = s.id then return ()
  match s.contactList.lookup m.toId with
  | none => throw (.exception ("No route to key : " ++ m.toId))
  | some c => sendMessageTo w m c.ep

/-- The shell the functions below share: an assert on the recipient, and a `try` around
the rest. -/
def checked (toId : String) (body : NodeM Unit) : NodeM Unit := do
  Act.ofExcept (assertThat (toId ≠ zeroId))
  Act.catchStd body

/-! ## Requests -/

def pingMessage (fromId toId : String) (t : Token) : MessageProto :=
  { type := .sendPing, fromId := fromId, toId := toId, token := t }

def storeMessage (fromId toId queryId : String) (cbf : DataItemProto) (t : Token) : MessageProto :=
  { type := .sendStore, fromId := fromId, token := t, toId := toId, queryId := queryId,
    dataItem := cbf }

def findNodeMessage (fromId toId queryId : String) (t : Token) : MessageProto :=
  { type := .sendFindNode, fromId := fromId, token := t, toId := toId, queryId := queryId }

def findValueMessage (fromId toId queryId : String) (t : Token) (hint : String) : MessageProto :=
  { type := .sendFindValue, fromId := fromId, token := t, toId := toId, queryId := queryId,
    hint := hint }

/-- `map_ping_ttl[t] = update_time()`. -/
def notePing (w : World) (t : Token) : NodeM Unit := do
  let now ← updateTime w
  modify fun s => { s with mapPingTtl := Function.update s.mapPingTtl t (some now) }

/-- `send_PING_nolock(epp, t)`. -/
def sendPingTo (w : World) (epp : EndpointProto) (t : Token) : NodeM Unit := do
  Act.ofExcept (assertNamed epp)
  Act.catchStd do
    let s ← get
    notePing w t
    sendMessageTo w { type := .sendPing, fromId := s.id, token := t } epp

/-- `send_PING_nolock(to_id, t)`. -/
def sendPing (w : World) (toId : String) (t : Token) : NodeM Unit :=
  checked toId do
    let s ← get
    notePing w t
    sendMessage w (pingMessage s.id toId t)

/-- `send_STORE`. -/
def sendStore (w : World) (toId queryId : String) (cbf : DataItemProto) (t : Token) : NodeM Unit :=
  checked toId do
    let s ← get
    modify fun s => { s with
      mapStoreCheckVal := Function.update s.mapStoreCheckVal t (some (.ofNat cbf.data.length)) }
    sendMessage w (storeMessage s.id toId queryId cbf t)

/-- `send_FIND_NODE`. -/
def sendFindNode (w : World) (toId queryId : String) (t : Token) : NodeM Unit :=
  checked toId do
    let s ← get
    sendMessage w (findNodeMessage s.id toId queryId t)

/-- `send_FIND_VALUE`. -/
def sendFindValue (w : World) (toId queryId : String) (t : Token) (hint : String := "") :
    NodeM Unit :=
  checked toId do
    let s ← get
    sendMessage w (findValueMessage s.id toId queryId t hint)

/-! ## Replies -/

/-- `reply_PING`. -/
def replyPing (w : World) (toId : String) (t : Token) : NodeM Unit :=
  checked toId do
    let s ← get
    sendMessage w { type := .replyPing, fromId := s.id, toId := toId, token := t }

/-- `reply_STORE`. -/
def replyStore (w : World) (toId : String) (t : Token) (cbf : DataItemProto) : NodeM Unit :=
  checked toId do
    let s ← get
    sendMessage w
      { type := .replyStore, fromId := s.id, toId := toId, token := t,
        checkVal := .ofNat cbf.data.length }

/-- The loop of `reply_FIND_NODE`: a packet leaves when it holds `ALPHA` contacts and at
the end of the list. -/
def sendContacts (w : World) (m : MessageProto) : List ContactProto → NodeM Unit
  | [] => return ()
  | c :: rest => do
    let m := { m with contactList := m.contactList ++ [c] }
    if alpha ≤ m.contactList.length ∨ rest = [] then
      sendMessage w m
      sendContacts w { m with contactList := [] } rest
    else sendContacts w m rest

/-- `reply_FIND_NODE`. -/
def replyFindNode (w : World) (toId : String) (t : Token) : NodeM Unit :=
  checked toId do
    let s ← get
    sendContacts w { type := .replyFindNode, fromId := s.id, token := t, toId := toId }
      (s.contactList.entries.map Prod.snd)

/-- `title.find(hint) != npos`. -/
def hasHint (hint title : String) : Bool :=
  title.toList.tails.any fun rest => hint.toList.isPrefixOf rest

/-- `reply_FIND_VALUE`. -/
def replyFindValue (w : World) (toId : String) (t : Token) (hint : String) : NodeM Unit :=
  checked toId do
    let s ← get
    let ld ← onStorage (DbMultiKeyData.find w.storage toId)
    let m : MessageProto :=
      { type := .replyFindValue, fromId := s.id, token := t, toId := toId,
        dataItemList := ld.filter fun item => hasHint hint item.title }
    if 0 < m.dataItemList.length then sendMessage w m

end Node

end MiniDht
