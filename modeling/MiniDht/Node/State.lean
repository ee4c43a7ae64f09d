import Mathlib.Logic.Function.Basic
import MiniDht.Bucket
import MiniDht.Db.KeyValue
import MiniDht.Db.MultiKeyData
import MiniDht.Search

/-!
# The node

Class `miniDHT`: its fields, and what it draws on outside the repository. The sessions
per endpoint are left out: whether a packet goes out on an old session or a new one, it
is handed to `session::deliver`. The lock is left out too, as every step below holds it.
-/

namespace MiniDht

open Lib

/-- `token_t`. -/
abbrev Token := UInt32

/-- What a node draws on. -/
structure World where
  /-- The readings of the clock, in turn (`update_time`). -/
  clock : Nat → Ptime
  /-- The results of `random()`, in turn. -/
  random : Nat → Nat
  /-- `ParseFromIstream`: whether the bytes are a message, and the message filled in. -/
  parse : List UInt8 → Bool × MessageProto
  /-- Bytes in a serialized message. -/
  byteSize : MessageProto → Nat
  /-- `proto_to_endpoint`; the resolver throws where there is no endpoint. -/
  resolve : EndpointProto → Option Endpoint
  /-- The client's functions, by their handles. -/
  nodeCallback : Nat → List String → Except Fault Unit
  valueCallback : Nat → List DataItemProto → Except Fault Unit
  /-- The engines behind `db_storage` and `db_backup`. -/
  storage : Sqlite Tables Row
  backup : Sqlite Contacts KvRow
  evalOrder : EvalOrder
  pastEnd : UInt64

/-- A world in which a packet of one byte is one of the given messages, every endpoint
resolves, the clients' functions return and the databases do as they are told. -/
def World.simple (packets : List MessageProto) : World where
  clock _ := 0
  random _ := 0
  parse
    | [i] => (decide (i.toNat < packets.length), packets.getD i.toNat {})
    | _ => (false, {})
  byteSize _ := 0
  resolve epp :=
    if printed : epp.address ≠ "" then
      let port := epp.port.toList.foldl (fun n c => 10 * n + (c.toNat - '0'.toNat)) 0
      some { address := epp.address, port := .ofNat port, printed := printed }
    else none
  nodeCallback _ _ := .ok ()
  valueCallback _ _ := .ok ()
  storage := .inOrder
  backup := .inOrder
  evalOrder := .rightFirst
  pastEnd := 0

/-- What is seen of a node from outside. -/
inductive Event where
  /-- `send_MESSAGE(m)` is called. -/
  | request (m : MessageProto)
  /-- `send_MESSAGE(m, epp)` is called. -/
  | handed (m : MessageProto) (epp : EndpointProto)
  /-- A packet with the message is given to `session::deliver`. -/
  | delivered (m : MessageProto) (ep : Endpoint)
  /-- The message is larger than the packet it is copied into. -/
  | overrun (m : MessageProto) (ep : Endpoint)
  deriving DecidableEq

/-- The message an event is about. -/
def Event.message : Event → MessageProto
  | request m => m
  | handed m _ => m
  | delivered m _ => m
  | overrun m _ => m

/-- Class `miniDHT`. A `std::map` over tokens is a function. `ticks` and `draws` count
the readings of the clock and the random numbers used up. -/
structure Node where
  id : String
  maxRecords : Nat
  senderEndpoint : Endpoint := { address := "0.0.0.0", port := 0, printed := by decide }
  contactList : Bucket
  mapSearch : Token → Option Search := fun _ => none
  dbStorage : Conn Tables
  dbBackup : Conn Contacts
  mapPingTtl : Token → Option Ptime := fun _ => none
  mapStoreCheckVal : Token → Option UInt64 := fun _ => none
  ticks : Nat := 0
  draws : Nat := 0
  log : List Event := []

/-- A step of the node. -/
abbrev NodeM := Act Node

/-- The largest body a packet takes: `PACKET_SIZE - header_length`. -/
def maxBodyLength : Nat := 1024 * 1024 - 16

namespace Node

/-- The node after more has been seen of it. -/
def logged (s : Node) (events : List Event) : Node :=
  { s with log := s.log ++ events }

@[simp] theorem logged_nil (s : Node) : s.logged [] = s := by simp [logged]

@[simp] theorem logged_logged (s : Node) (a b : List Event) :
    (s.logged a).logged b = s.logged (a ++ b) := by simp [logged]

@[simp] theorem logged_log (s : Node) (a : List Event) : (s.logged a).log = s.log ++ a := rfl

@[simp] theorem logged_id (s : Node) (a : List Event) : (s.logged a).id = s.id := rfl

@[simp] theorem logged_contactList (s : Node) (a : List Event) :
    (s.logged a).contactList = s.contactList := rfl

@[simp] theorem logged_mapSearch (s : Node) (a : List Event) :
    (s.logged a).mapSearch = s.mapSearch := rfl

@[simp] theorem logged_mapStoreCheckVal (s : Node) (a : List Event) :
    (s.logged a).mapStoreCheckVal = s.mapStoreCheckVal := rfl

@[simp] theorem logged_mapPingTtl (s : Node) (a : List Event) :
    (s.logged a).mapPingTtl = s.mapPingTtl := rfl

@[simp] theorem logged_dbStorage (s : Node) (a : List Event) :
    (s.logged a).dbStorage = s.dbStorage := rfl

/-- What was seen of a node from one state to a later one. -/
def since (s s' : Node) : List Event := s'.log.drop s.log.length

theorem since_of_log {s s' : Node} {l : List Event} (log : s'.log = s.log ++ l) :
    s.since s' = l := by
  simp [since, log]

/-! ## Primitive steps -/

def record (e : Event) : NodeM Unit :=
  modify fun s => s.logged [e]

/-- `update_time`. -/
def updateTime (w : World) : NodeM Ptime := do
  let s ← get
  set { s with ticks := s.ticks + 1 }
  return w.clock s.ticks

theorem exec_updateTime (w : World) (s : Node) :
    Act.exec (updateTime w) s = (.ok (w.clock s.ticks), { s with ticks := s.ticks + 1 }) := rfl

/-- The token `random_bitset<TOKEN_SIZE>().to_ulong()` after `draws` draws. -/
def tokenAt (w : World) (draws : Nat) : Token :=
  .ofBitVec (bitset (fun i => w.random (draws + i) % 2 ≠ 0) tokenSize)

/-- `random_bitset<TOKEN_SIZE>().to_ulong()`. -/
def randomToken (w : World) : NodeM Token := do
  let s ← get
  set { s with draws := s.draws + tokenSize }
  return tokenAt w s.draws

theorem exec_randomToken (w : World) (s : Node) : Act.exec (randomToken w) s =
    (.ok (tokenAt w s.draws), { s with draws := s.draws + tokenSize }) := rfl

/-- `map_search[t]`. Where there is none, one without a type is made and then read. -/
def searchAt (t : Token) : NodeM Search := do
  match (← get).mapSearch t with
  | some search => return search
  | none => throw .undefined

/-- `map_search[t] = search`. -/
def putSearch (t : Token) (search : Search) : NodeM Unit :=
  modify fun s => { s with mapSearch := Function.update s.mapSearch t (some search) }

/-- `map_search.erase(t)`. -/
def eraseSearch (t : Token) : NodeM Unit :=
  modify fun s => { s with mapSearch := Function.update s.mapSearch t none }

/-- `contact_list.add_contact(k, ep)`. The clock is read even where it is not needed. -/
def addContact (w : World) (k : String) (ep : EndpointProto) : NodeM Unit := do
  let now ← updateTime w
  let contactList ← Act.ofExcept
    ((← get).contactList.addContact w.evalOrder w.pastEnd now k ep)
  modify fun s => { s with contactList := contactList }

/-- Run a call on `db_storage`. -/
def onStorage {α : Type} (x : DbM Tables α) : NodeM α :=
  Act.zoom Node.dbStorage (fun c s => { s with dbStorage := c }) x

/-- Run a call on `db_backup`. -/
def onBackup {α : Type} (x : DbM Contacts α) : NodeM α :=
  Act.zoom Node.dbBackup (fun c s => { s with dbBackup := c }) x

theorem exec_onBackup {α : Type} {x : DbM Contacts α} {s : Node} {r : Except Fault α}
    {c : Conn Contacts} (run : Act.exec x s.dbBackup = (r, c)) :
    Act.exec (onBackup x) s = (r, { s with dbBackup := c }) := by
  rw [onBackup, Act.exec_zoom, run]

end Node

end MiniDht
