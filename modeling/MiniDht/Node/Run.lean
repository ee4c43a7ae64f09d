import MiniDht.Node.Handlers

/-!
# Running a node

What a node does besides receiving: it starts from its backup and cleans up from time to
time. An `Input` is what runs under the lock at once, and `Reachable` is what inputs in
any order lead to.
-/

namespace MiniDht

open Lib

namespace Node

/-! ## Starting -/

/-- The fields after the constructor has opened the two databases. One random number has
gone into the timer. -/
def initial (key : BitVec keySize) (maxRecords : Nat) (storage : Tables) (contacts : Contacts) :
    Node where
  id := keyToString key
  maxRecords := maxRecords
  contactList := .new (keyToString key)
  dbStorage := { tables := storage }
  dbBackup := { tables := contacts }
  draws := 1

/-- The loop of `restore_from_backup`. A malformed entry throws outside of the `try`. -/
def pingBackup (w : World) : List String → NodeM Unit
  | [] => return ()
  | entry :: rest => do
    let (address, port) ← Act.ofExcept (stringToEndpointPair entry)
    let t ← randomToken w
    Act.catchStd (sendPingTo w { address := address, port := port } t)
    pingBackup w rest

/-- `restore_from_backup`. -/
def restoreFromBackup (w : World) : NodeM Unit := do
  let l ← onBackup (DbKeyValue.listValue w.backup)
  pingBackup w l

/-! ## Cleaning up -/

/-- The loop over the contact list in `periodic`, at position `pos`; it steps after an
erase as the loop of `remove_contact` does. -/
def refreshFrom (w : World) : (fuel pos : Nat) → NodeM Unit
  | 0, _ => throw .hang
  | fuel + 1, pos => do
    match (← get).contactList.entries[pos]? with
    | none => return ()
    | some (index, c) =>
      if index = keySize then refreshFrom w fuel (pos + 1)
      else
        let td := (← updateTime w) - fromTimeT (toSigned (c.time.getD 0))
        if minutes periodicMinutes < td then
          sendPing w c.key (← randomToken w)
          onBackup (DbKeyValue.remove w.backup c.key)
          modify fun s => { s with
            contactList := { s.contactList with entries := s.contactList.entries.eraseIdx pos } }
          if (← get).contactList.entries = [] then throw .undefined
          refreshFrom w fuel 1
        else
          let endpoint := endpointToString c.ep
          let value ← onBackup (DbKeyValue.find w.backup c.key)
          if value ≠ endpoint then
            if value ≠ "" then onBackup (DbKeyValue.remove w.backup c.key)
            onBackup (DbKeyValue.insert w.backup c.key endpoint)
          refreshFrom w fuel (pos + 1)

/-- The first section of `periodic`: contacts not seen for long are dropped, the others
backed up. -/
def refreshContacts (w : World) : NodeM Unit :=
  Act.rethrowAs "std::exception" do
    let n := (← get).contactList.entries.length
    refreshFrom w ((n + 1) * (n + 1)) 0

/-- `contact_list.random_key_in_bucket(i)`. -/
def randomKey (w : World) (i : Nat) : NodeM String := do
  let s ← get
  set { s with draws := s.draws + (keySize - i) }
  return s.contactList.randomKeyInBucket (fun j => w.random (s.draws + j) % 2 ≠ 0) i

/-- The loop of the second section of `periodic`, over the buckets. -/
def diversifyFrom (w : World) : List Nat → NodeM Unit
  | [] => return ()
  | i :: rest => do
    if (← get).contactList.count i = 0 then iterativeFindNodeNolock w (← randomKey w i)
    diversifyFrom w rest

/-- The second section of `periodic`: a search for a key in every empty bucket. -/
def diversify (w : World) : NodeM Unit :=
  Act.rethrowAs "std::exception" (diversifyFrom w (List.range (keySize - 1)))

/-- What the third section of `periodic` does with a header: the record is dropped when
its time is up and published again otherwise. -/
def cleanHeader (w : World) (checkTime : Ptime) (h : DataItemHeader) : NodeM Unit :=
  Act.rethrowAs "std::exception" do
    let timeElapsed := checkTime - fromTimeT h.time
    if seconds h.ttl < timeElapsed then
      onStorage (DbMultiKeyData.remove w.storage h.key h.title)
    else
      let item ← onStorage (DbMultiKeyData.findTitle w.storage h.key h.title {})
      iterativeStore w h.key { item with ttl := item.ttl - toUnsigned (toTimeT timeElapsed) }

/-- The headers the third section of `periodic` goes through. -/
def storedHeaders (w : World) : NodeM (List DataItemHeader) :=
  Act.rethrowAs "std::exception" (onStorage (DbMultiKeyData.listHeaders w.storage))

/-! ## Inputs -/

/-- What runs under the lock at once: a packet, a disconnection, a call of the client, or
a section of `periodic`, which lets the lock go between sections and between headers. -/
inductive Input where
  | receive (ep : Endpoint) (body : List UInt8)
  | disconnect (ep : Endpoint)
  | iterativeStore (k : String) (b : DataItemProto)
  | iterativeFindNode (k : String)
  | iterativeFindValue (k : String) (c : Nat) (hint : String)
  | pingEndpoint (epp : EndpointProto) (t : Token)
  | ping (toId : String) (t : Token)
  | setMaxRecord (val : Nat)
  | refreshContacts
  | diversify
  | storedHeaders
  | cleanHeader (checkTime : Ptime) (h : DataItemHeader)

def Input.run (w : World) : Input → NodeM Unit
  | receive ep body => handleReceive w ep body
  | disconnect ep => handleDisconnect ep
  | iterativeStore k b => Node.iterativeStore w k b
  | iterativeFindNode k => Node.iterativeFindNode w k
  | iterativeFindValue k c hint => Node.iterativeFindValue w k c hint
  | pingEndpoint epp t => sendPingTo w epp t
  | ping toId t => sendPing w toId t
  | setMaxRecord val => modify fun s => { s with maxRecords := val }
  | refreshContacts => Node.refreshContacts w
  | diversify => Node.diversify w
  | storedHeaders => do
    let _ ← Node.storedHeaders w
  | cleanHeader checkTime h => Node.cleanHeader w checkTime h

/-- The states of a node that has started and survived every input so far. -/
inductive Reachable (w : World) : Node → Prop where
  | start {key : BitVec keySize} {maxRecords : Nat} {storage : Tables} {contacts : Contacts}
      {s : Node}
      (run : Act.exec (restoreFromBackup w) (initial key maxRecords storage contacts) = (.ok (), s)) :
      Reachable w s
  | step {s s' : Node} {input : Input} {out : Except Fault Unit} (reach : Reachable w s)
      (run : Act.exec (input.run w) s = (out, s')) (survives : Survives out) : Reachable w s'

/-- A node takes inputs one after another, and survives them. With each input stands the
node that takes it. -/
inductive Takes (w : World) : Node → List (Node × Input) → Node → Prop where
  | done {s : Node} : Takes w s [] s
  | step {s s₁ s' : Node} {input : Input} {out : Except Fault Unit} {steps : List (Node × Input)}
      (run : Act.exec (input.run w) s = (out, s₁)) (survives : Survives out)
      (rest : Takes w s₁ steps s') : Takes w s ((s, input) :: steps) s'

theorem Reachable.receive {w : World} {s s' : Node} {ep : Endpoint} {body : List UInt8}
    {out : Except Fault Unit} (reach : Reachable w s)
    (run : Act.exec (handleReceive w ep body) s = (out, s')) (survives : Survives out) :
    Reachable w s' := by
  rw [← Input.run] at run
  exact .step reach run survives

theorem Reachable.store {w : World} {s s' : Node} {k : String} {b : DataItemProto}
    {out : Except Fault Unit} (reach : Reachable w s)
    (run : Act.exec (iterativeStore w k b) s = (out, s')) (survives : Survives out) :
    Reachable w s' := by
  rw [← Input.run] at run
  exact .step reach run survives

end Node

end MiniDht
