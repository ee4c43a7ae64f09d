import MiniDht.Node.Sent
import MiniDht.Session.Message

/-!
# The copy into the packet

`send_MESSAGE(m, epp)` with the bytes: the serialized message is copied into a frame that was
made for its size. The constructor silently makes no more room than a packet has, while the
copy is of the whole message. What `SerializeToOstream` writes is a parameter.
-/

namespace MiniDht

open Lib

namespace BasicMessage

variable {packetSize : Nat}

/-- `basic_message(size)`. The length of the body, which is also what is allocated for it, is
cut to what a packet holds. -/
def ofSize (packetSize size : Nat) : BasicMessage where
  bodyLength := if maxBodyLength packetSize < size then maxBodyLength packetSize else size

/-- `std::memcpy(msg.body(), bytes, bytes.size())`. Nothing is allocated behind the body. -/
def copyBody (m : BasicMessage) (bytes : List UInt8) : Except Fault BasicMessage :=
  if bytes.length ≤ m.bodyLength then .ok { m with body := bytes } else .error .undefined

/-- `listen_port(port)`. -/
def withListenPort (m : BasicMessage) (port : UInt16) : BasicMessage :=
  { m with listenPort := port }

theorem copyBody_fits {bytes : List UInt8} (fits : bytes.length ≤ maxBodyLength packetSize) :
    (ofSize packetSize bytes.length).copyBody bytes =
      .ok { body := bytes, bodyLength := bytes.length } := by
  have whole : (ofSize packetSize bytes.length).bodyLength = bytes.length := if_neg (not_lt.mpr fits)
  rw [copyBody, whole, if_pos le_rfl]
  rfl

theorem copyBody_large {bytes : List UInt8} (large : maxBodyLength packetSize < bytes.length) :
    (ofSize packetSize bytes.length).copyBody bytes = .error .undefined := by
  have cut : (ofSize packetSize bytes.length).bodyLength = maxBodyLength packetSize := if_pos large
  rw [copyBody, cut, if_neg (not_le.mpr large)]

/-- The copied message in its frame is the frame of the message. -/
theorem frame_eq {bytes : List UInt8} (fits : bytes.length ≤ maxBodyLength packetSize)
    (port : UInt16) :
    (BasicMessage.withListenPort { body := bytes, bodyLength := bytes.length } port).encodeHeader =
      frame packetSize port bytes := by
  have whole : min bytes.length (maxBodyLength packetSize) = bytes.length := min_eq_left fits
  unfold frame withListenPort
  rw [whole]
  simp only [List.take_length]

end BasicMessage

namespace Node

variable {w : World} {serialize : MessageProto → List UInt8} {packetSize : Nat}
  {listenPort : UInt16} {m : MessageProto} {epp : EndpointProto} {uep : Endpoint}

/-- `send_MESSAGE(m, epp)` up to `session::deliver`: the frame that is delivered, and where.
What the resolver throws is caught, and nothing is delivered. -/
def packet (w : World) (serialize : MessageProto → List UInt8) (packetSize : Nat)
    (listenPort : UInt16) (m : MessageProto) (epp : EndpointProto) :
    Except Fault (Option (Endpoint × BasicMessage)) := do
  assertNamed epp
  let ss := serialize m
  match w.resolve epp with
  | none => return none
  | some uep =>
    let _ ← endpointToProto uep
    let msg ← (BasicMessage.ofSize packetSize ss.length).copyBody ss
    return some (uep, (msg.withListenPort listenPort).encodeHeader)

theorem packet_unnamed (unnamed : ¬ epp.Named) :
    packet w serialize packetSize listenPort m epp = .error .assertion := by
  rw [packet, Search.assertNamed_error unnamed]
  rfl

section Named

variable (named : epp.Named)
include named

theorem packet_unresolved (nowhere : w.resolve epp = none) :
    packet w serialize packetSize listenPort m epp = .ok none := by
  rw [packet, assertNamed_named named, nowhere]
  rfl

theorem packet_fits (resolved : w.resolve epp = some uep)
    (fits : (serialize m).length ≤ BasicMessage.maxBodyLength packetSize) :
    packet w serialize packetSize listenPort m epp =
      .ok (some (uep, BasicMessage.frame packetSize listenPort (serialize m))) := by
  rw [packet, assertNamed_named named, resolved, ← BasicMessage.frame_eq fits]
  simp only [endpointToProto_eq, BasicMessage.copyBody_fits fits]
  rfl

theorem packet_large (resolved : w.resolve epp = some uep)
    (large : BasicMessage.maxBodyLength packetSize < (serialize m).length) :
    packet w serialize packetSize listenPort m epp = .error .undefined := by
  rw [packet, assertNamed_named named, resolved]
  simp only [endpointToProto_eq, BasicMessage.copyBody_large large]
  rfl

/-- What is seen of `send_MESSAGE(m, epp)` is what becomes of the packet. -/
theorem handOver_packet (size : w.byteSize m = (serialize m).length) :
    handOver w m epp = .handed m epp ::
      match packet w serialize (1024 * 1024) listenPort m epp, w.resolve epp with
      | .ok (some (uep, _)), _ => [.delivered m uep]
      | .error _, some uep => [.overrun m uep]
      | _, _ => [] := by
  have room : BasicMessage.maxBodyLength (1024 * 1024) = maxBodyLength := rfl
  unfold handOver
  cases resolved : w.resolve epp with
  | none => rw [packet_unresolved named resolved]
  | some uep =>
    by_cases large : maxBodyLength < w.byteSize m
    · rw [packet_large named resolved (by rwa [room, ← size])]
      simp only [if_pos large]
    · rw [packet_fits named resolved (by rwa [room, ← size, ← not_lt])]
      simp only [if_neg large]

end Named

/-- The message is framed whole or not at all: the copy stays inside the frame, and a frame
that is delivered has all of the serialized message for its body. -/
structure FramedWhole (sent : Except Fault (Option (Endpoint × BasicMessage)))
    (bytes : List UInt8) : Prop where
  inside : sent ≠ .error .undefined
  whole : ∀ uep msg, sent = .ok (some (uep, msg)) → msg.body = bytes ∧ msg.bodyLength = bytes.length

/-- A message is framed whole or not at all exactly if it fits into a packet or there is no
endpoint to send it to. -/
theorem framedWhole_iff (w : World) (serialize : MessageProto → List UInt8) (packetSize : Nat)
    (listenPort : UInt16) (m : MessageProto) (epp : EndpointProto) :
    FramedWhole (packet w serialize packetSize listenPort m epp) (serialize m) ↔
      ¬ epp.Named ∨ w.resolve epp = none ∨
        (serialize m).length ≤ BasicMessage.maxBodyLength packetSize := by
  by_cases named : epp.Named
  · cases resolved : w.resolve epp with
    | none =>
      rw [packet_unresolved named resolved]
      exact iff_of_true ⟨by simp, by simp⟩ (.inr (.inl rfl))
    | some uep =>
      by_cases fits : (serialize m).length ≤ BasicMessage.maxBodyLength packetSize
      · rw [packet_fits named resolved fits]
        refine iff_of_true ⟨by simp, ?_⟩ (.inr (.inr fits))
        rintro _ msg same
        obtain ⟨-, rfl⟩ := Prod.mk.inj (Option.some.inj (Except.ok.inj same))
        rw [← BasicMessage.frame_eq fits]
        exact ⟨rfl, rfl⟩
      · rw [packet_large named resolved (not_le.mp fits)]
        refine iff_of_false (fun framed => framed.inside rfl) ?_
        rintro (unnamed | nowhere | small)
        · exact unnamed named
        · cases nowhere
        · exact fits small
  · rw [packet_unnamed named]
    exact iff_of_true ⟨by simp, by simp⟩ (.inl named)

/-! ## A message that does not fit -/

/-- A number in groups of seven bits, the lowest first. -/
def varint : Nat → Nat → List UInt8
  | 0, _ => []
  | fuel + 1, n => if n < 128 then [.ofNat n] else .ofNat (128 + n % 128) :: varint fuel (n / 128)

/-- A field that is a number. -/
def numberField (field n : Nat) : List UInt8 := varint 10 (8 * field) ++ varint 10 n

/-- A field that is a string of bytes. -/
def bytesField (field : Nat) (bytes : List UInt8) : List UInt8 :=
  varint 10 (8 * field + 2) ++ varint 10 bytes.length ++ bytes

/-- What a `data_item_proto` is serialized to. -/
def serializeItem (item : DataItemProto) : List UInt8 :=
  numberField 1 item.ttl.toNat ++ numberField 2 item.time.toNat ++
    bytesField 3 item.title.toUTF8.toList ++ bytesField 4 item.data

/-- What a `SEND_STORE` with the fields set by `send_STORE` is serialized to. -/
def serializeStore (m : MessageProto) : List UInt8 :=
  numberField 1 4 ++ bytesField 2 m.fromId.toUTF8.toList ++ numberField 3 m.token.toNat ++
    bytesField 4 m.toId.toUTF8.toList ++ bytesField 5 m.queryId.toUTF8.toList ++
    bytesField 8 (serializeItem m.dataItem)

/-- A message with the data of an item is larger than the data. -/
theorem length_data_le (m : MessageProto) : m.dataItem.data.length ≤ (serializeStore m).length := by
  simp only [serializeStore, serializeItem, bytesField, List.length_append]
  omega

/-- A megabyte to be stored is written past the end of the frame. -/
theorem packet_overrun :
    let m := storeMessage "0a" "0b" "0c" ⟨60, 1, "t", List.replicate (1024 * 1024) 0⟩ 7
    packet (World.simple []) serializeStore (1024 * 1024) 4000 m ⟨"10.0.0.2", "4000"⟩ =
        .error .undefined ∧
      ¬ FramedWhole (packet (World.simple []) serializeStore (1024 * 1024) 4000 m
        ⟨"10.0.0.2", "4000"⟩) (serializeStore m) := by
  intro m
  have data : m.dataItem.data.length = 1024 * 1024 := List.length_replicate
  have large : BasicMessage.maxBodyLength (1024 * 1024) < (serializeStore m).length := by
    have more := length_data_le m
    rw [data] at more
    unfold BasicMessage.maxBodyLength headerLength
    omega
  have overrun : packet (World.simple []) serializeStore (1024 * 1024) 4000 m
      ⟨"10.0.0.2", "4000"⟩ = .error .undefined := by
    exact packet_large (by decide) rfl large
  exact ⟨overrun, fun framed => framed.inside overrun⟩

end Node

end MiniDht
