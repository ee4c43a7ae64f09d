import Mathlib.Algebra.Order.Ring.Int
import Mathlib.Tactic.Common

/-!
# Messages

The messages of `miniDHT_proto.proto`. A field that is read without asking whether it
is set is modelled with the default its accessor returns; only `ContactProto.time` is
asked (`has_time`). Strings and byte fields are arbitrary. `listen_port` of the
message is neither set nor read by the node and left out.
-/

namespace MiniDht

structure EndpointProto where
  address : String := ""
  port : String := ""
  deriving DecidableEq, Repr

structure DataItemProto where
  ttl : UInt64 := 0
  time : UInt64 := 0
  title : String := ""
  data : List UInt8 := []
  deriving DecidableEq, Repr

structure ContactProto where
  key : String := ""
  ep : EndpointProto := {}
  time : Option UInt64 := none
  deriving DecidableEq, Repr

/-- `message_proto::message_type`. A value outside the enumeration is kept apart by
the decoder and reads as the default `NONE`. -/
inductive MessageType where
  | none
  | sendPing
  | replyPing
  | sendStore
  | replyStore
  | sendFindNode
  | replyFindNode
  | sendFindValue
  | replyFindValue
  deriving DecidableEq, Repr

structure MessageProto where
  type : MessageType := .none
  fromId : String := ""
  token : UInt32 := 0
  toId : String := ""
  queryId : String := ""
  checkVal : UInt64 := 0
  dataItem : DataItemProto := {}
  hint : String := ""
  contactList : List ContactProto := []
  dataItemList : List DataItemProto := []
  deriving DecidableEq, Repr

/-- Both parts of an endpoint are there, as the asserts on endpoints ask. -/
def EndpointProto.Named (ep : EndpointProto) : Prop :=
  ep.address ≠ "" ∧ ep.port ≠ ""

instance (ep : EndpointProto) : Decidable ep.Named :=
  inferInstanceAs (Decidable (_ ∧ _))

end MiniDht
