import MiniDht.Node.Invariants

/-!
# What calls leave alone

Sending, replying and pinging change nothing of a node but its clock, its random numbers,
its log and what it expects to be answered; `Leaves` says so of any view that is `Blind` to
these. Storing leaves contacts and searches alone as well (`Inert`).
-/

namespace MiniDht

open Lib

namespace Node

/-- After the call, whatever way it ended, this view of the node is what it was. -/
def Leaves {κ α : Type} (view : Node → κ) (x : NodeM α) : Prop :=
  ∀ c, Act.Keeps (fun s => view s = c) x

/-- A view that sees nothing of what goes on when messages are sent: the clock, the random
numbers, what answers are expected and what was sent before. -/
def Blind {κ : Type} (view : Node → κ) : Prop :=
  ∀ (s : Node) (ticks draws : Nat) (pings : Token → Option Ptime) (sizes : Token → Option UInt64)
    (log : List Event),
    view { s with
      ticks := ticks, draws := draws, mapPingTtl := pings, mapStoreCheckVal := sizes, log := log } =
      view s

/-- The id, the contacts and the searches of a node. -/
def core (s : Node) : String × Bucket × (Token → Option Search) :=
  (s.id, s.contactList, s.mapSearch)

/-- The storage of a node and how many records it may hold. -/
def shelf (s : Node) : Conn Tables × Nat := (s.dbStorage, s.maxRecords)

theorem blind_core : Blind core := fun _ _ _ _ _ _ => rfl

theorem blind_shelf : Blind shelf := fun _ _ _ _ _ _ => rfl

theorem Blind.carries {κ : Type} {view : Node → κ} (blind : Blind view) (w : World) (c : κ) :
    Notes w (fun s => view s = c) fun _ => True :=
  .of_book (fun s ticks draws pings sizes h => (blind s ticks draws pings sizes s.log).trans h)
    (fun s e h _ =>
      (blind s s.ticks s.draws s.mapPingTtl s.mapStoreCheckVal (s.log ++ [e])).trans h)
    fun _ _ _ _ _ => trivial

namespace Leaves

variable {κ α : Type} {view : Node → κ} {w : World}

theorem get : Leaves view (MonadState.get : NodeM Node) := fun _ => .get

theorem onBackup (same : ∀ s c, view { s with dbBackup := c } = view s) (x : DbM Contacts α) :
    Leaves view (Node.onBackup x) :=
  fun _ => .zoom fun s h => (same s _).trans h

variable (blind : Blind view)
include blind

theorem updateTime : Leaves view (Node.updateTime w) := fun c => (blind.carries w c).updateTime

theorem randomToken : Leaves view (Node.randomToken w) := fun c => (blind.carries w c).randomToken

theorem sendPingTo (epp : EndpointProto) (t : Token) : Leaves view (Node.sendPingTo w epp t) :=
  fun c => (blind.carries w c).sendPingTo epp

theorem sendPing (toId : String) (t : Token) : Leaves view (Node.sendPing w toId t) :=
  fun c => (blind.carries w c).sendPing

theorem replyPing (toId : String) (t : Token) : Leaves view (Node.replyPing w toId t) :=
  fun c => (blind.carries w c).replyPing

theorem replyFindNode (toId : String) (t : Token) : Leaves view (Node.replyFindNode w toId t) :=
  fun c => (blind.carries w c).replyFindNode

theorem handleReplyStore (w : World) (m : MessageProto) : Leaves view (Node.handleReplyStore m) :=
  fun c => (blind.carries w c).handleReplyStore

theorem restoreFromBackup (same : ∀ s c, view { s with dbBackup := c } = view s) :
    Leaves view (Node.restoreFromBackup w) := fun c =>
  .bind (onBackup same _ c) fun _ => (blind.carries w c).pingBackup _

end Leaves

/-- A call that leaves the core of a node as it is. -/
abbrev Inert {α : Type} (x : NodeM α) : Prop := Leaves core x

namespace Inert

variable {α : Type} {w : World}

/-- Nothing of the core is kept in the storage. -/
theorem stored (c : String × Bucket × (Token → Option Search)) (s : Node) (st : Conn Tables)
    (h : core s = c) : core { s with dbStorage := st } = c := h

theorem insertDb (k : String) (d : DataItemProto) : Inert (Node.insertDb w k d) :=
  fun c => (blind_core.carries w c).insertDb (stored c) k d

theorem handleSendStore (m : MessageProto) : Inert (Node.handleSendStore w m) :=
  fun c => (blind_core.carries w c).handleSendStore (stored c)

theorem handleSendFindValue (m : MessageProto) : Inert (Node.handleSendFindValue w m) :=
  fun c => (blind_core.carries w c).handleSendFindValue (stored c)

theorem onStorage (x : DbM Tables α) : Inert (Node.onStorage x) :=
  fun c => Carries.onStorage (stored c) x

theorem storedHeaders : Inert (Node.storedHeaders w) := fun c => .rethrowAs (onStorage _ c)

end Inert

end Node

end MiniDht
