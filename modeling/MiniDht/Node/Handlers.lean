import MiniDht.Node.Iterative

/-!
# Receiving

`handle_receive` reads a message from the bytes of a packet and passes it to the handler
for its type. A `std::exception` that a handler lets out does not stay inside: printing
it asks for the endpoint of a socket that was never opened.
-/

namespace MiniDht

open Lib

namespace Node

/-! ## Storing -/

/-- The loop of `insert_db` that makes room, bounded by `fuel`. -/
def makeRoom (w : World) : (fuel : Nat) → NodeM Unit
  | 0 => throw .hang
  | fuel + 1 => do
    let size ← onStorage (DbMultiKeyData.size w.storage)
    if size < (← get).maxRecords then return ()
    onStorage (DbMultiKeyData.removeOldest w.storage)
    makeRoom w fuel

/-- The loop of `insert_db` over the titles found under the key: whether one of them was
the title of `d`. -/
def refreshTitle (w : World) (k : String) (d : DataItemProto) :
    List DataItemProto → NodeM Bool
  | [] => return false
  | item :: rest =>
    if item.title = d.title then do
      let now ← updateTime w
      let tempTime := now - fromTimeT (toSigned item.time)
      let dTime := now - fromTimeT (toSigned d.time)
      if dTime < tempTime then
        onStorage
          (DbMultiKeyData.update w.storage k d.title (toSigned d.time) (toSigned d.ttl))
      return true
    else refreshTitle w k d rest

/-- `db_storage.insert(k, …)` with the fields of an item. -/
def insertItem (w : World) (k : String) (d : DataItemProto) : NodeM Unit :=
  onStorage
    (DbMultiKeyData.insert w.storage k d.title (toSigned d.time) (toSigned d.ttl) d.data)

/-- `insert_db`. Each removal but the last leaves a header less, which bounds the loop
that makes room; with nothing to remove it never ends. -/
def insertDb (w : World) (k : String) (d : DataItemProto) : NodeM Unit := do
  if (← onStorage (DbMultiKeyData.count w.storage k)) = 0 then
    makeRoom w ((← get).dbStorage.tables.dataHeader.length + 1)
    insertItem w k d
  else
    let ld ← onStorage (DbMultiKeyData.findNoBlob w.storage k)
    if ← refreshTitle w k d ld then return ()
    insertItem w k d

/-- `storage_size`. -/
def storageSize (w : World) : NodeM Nat :=
  onStorage (DbMultiKeyData.size w.storage)

/-! ## Handlers -/

def handleSendPing (w : World) (m : MessageProto) : NodeM Unit :=
  replyPing w m.fromId m.token

/-- The difference is taken the wrong way round, so a late answer counts as well. -/
def handleReplyPing (w : World) (m : MessageProto) : NodeM Unit := do
  let tTimeout := minutes 1
  match (← get).mapPingTtl m.token with
  | none => return ()
  | some sent =>
    let td := sent - (← updateTime w)
    if td < tTimeout then
      let epp ← Act.ofExcept (endpointToProto (← get).senderEndpoint)
      addContact w m.fromId epp
    modify fun s => { s with mapPingTtl := Function.update s.mapPingTtl m.token none }

/-- The item is filed under the recipient's id. -/
def handleSendStore (w : World) (m : MessageProto) : NodeM Unit := do
  let di := { m.dataItem with time := toUnsigned (toTimeT (← updateTime w)) }
  insertDb w m.toId di
  replyStore w m.fromId m.token di

/-- What `socket_.local_endpoint()` throws, on a socket that is not open. -/
def localEndpointError : String := "local_endpoint: Bad file descriptor"

def handleReplyStore (m : MessageProto) : NodeM Unit := do
  match (← get).mapStoreCheckVal m.token with
  | none => return ()
  | some checkVal =>
    if m.checkVal ≠ checkVal then throw (.exception localEndpointError)
    modify fun s => { s with
      mapStoreCheckVal := Function.update s.mapStoreCheckVal m.token none }

def handleSendFindNode (w : World) (m : MessageProto) : NodeM Unit :=
  replyFindNode w m.fromId m.token

/-- The loop of `handle_REPLY_FIND_NODE`: every contact is pinged, by its key. -/
def pingContacts (w : World) : List ContactProto → NodeM Unit
  | [] => return ()
  | c :: rest => do
    Act.ofExcept (assertNamed c.ep)
    sendPing w c.key (← randomToken w)
    pingContacts w rest

/-- The round is run for the key that the message gives as its recipient. -/
def handleReplyFindNode (w : World) (m : MessageProto) : NodeM Unit := do
  match (← get).mapSearch m.token with
  | none => return ()
  | some _ =>
    pingContacts w m.contactList
    replyIterative w m.contactList m.token m.toId

/-- Whether there is something to reply is asked for the recipient's id. -/
def handleSendFindValue (w : World) (m : MessageProto) : NodeM Unit := do
  let isPresent := (← onStorage (DbMultiKeyData.count w.storage m.toId)) ≠ 0
  if isPresent then replyFindValue w m.fromId m.token m.hint
  else replyFindNode w m.fromId m.token

def handleReplyFindValue (w : World) (m : MessageProto) : NodeM Unit := do
  match (← get).mapSearch m.token with
  | none => return ()
  | some search =>
    match search.valueCallback with
    | some c => Act.ofExcept (w.valueCallback c m.dataItemList)
    | none => throw (.exception "call to empty boost::function")
    eraseSearch m.token

/-- `handle_message(m)`. -/
def handleMessage (w : World) (m : MessageProto) : NodeM Unit :=
  match m.type with
  | .sendPing => handleSendPing w m
  | .replyPing => handleReplyPing w m
  | .sendStore => handleSendStore w m
  | .replyStore => handleReplyStore m
  | .sendFindNode => handleSendFindNode w m
  | .replyFindNode => handleReplyFindNode w m
  | .sendFindValue => handleSendFindValue w m
  | .replyFindValue => handleReplyFindValue w m
  | .none => throw (.exception "Unknown message type.")

/-- `handle_message(m, epp)`: the sender of a request becomes a contact. -/
def handleMessageFrom (w : World) (m : MessageProto) (epp : EndpointProto) : NodeM Unit :=
  match m.type with
  | .sendPing | .sendFindValue | .sendStore | .sendFindNode => do
    addContact w m.fromId epp
    handleMessage w m
  | .replyPing | .replyStore | .replyFindNode | .replyFindValue => handleMessage w m
  | .none => throw (.exception "Unknown message type.")

/-- `handle_receive`, on the body of a packet. -/
def handleReceive (w : World) (ep : Endpoint) (body : List UInt8) : NodeM Unit :=
  Act.rethrowAs localEndpointError do
    modify fun s => { s with senderEndpoint := ep }
    let epp ← Act.ofExcept (endpointToProto ep)
    handleMessageFrom w (w.parse body).2 epp

/-- `handle_disconnect`. -/
def handleDisconnect (ep : Endpoint) : NodeM Unit := do
  let epp ← Act.ofExcept (endpointToProto ep)
  let contactList ← Act.ofExcept ((← get).contactList.removeContact epp)
  modify fun s => { s with contactList := contactList }

end Node

end MiniDht
