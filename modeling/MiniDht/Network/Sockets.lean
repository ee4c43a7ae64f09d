import MiniDht.Network.Traffic
import MiniDht.Node.Packet
import MiniDht.Session.Broken
import MiniDht.Session.Ends

/-!
# Nodes that are connected

The network as it is built: a node hands its messages to sessions, the sessions write frames to
connections, and what comes of a frame at the other end is a call of `handle_receive`. The
events at the sessions of all nodes come in any order. Every run is one of the abstract
network, whose transport delivers a message once at most and tells the receiver where its sender
listens (`sockets_refine`).
-/

namespace MiniDht

open Lib Session

/-- `PACKET_SIZE`. -/
def packetSize : Nat := 1024 * 1024

/-- A network, the sessions of its nodes, which sessions are the two ends of a connection, and
how many bytes have come in at each. -/
structure Sockets (ι : Type) where
  net : Network ι
  registry : ι → Registry
  peer : ι × Nat → Option (ι × Nat)
  taken : ι × Nat → Nat

namespace Registry

variable (serialize : MessageProto → List UInt8) (listenPort : UInt16)

/-- `send_MESSAGE(m, epp)` once the endpoint has been resolved: the message is copied into a
frame, and the frame delivered to a session. -/
def hand (r : Registry) (m : MessageProto) (uep : Endpoint) : Except Fault Registry := do
  let ss := serialize m
  let msg ← (BasicMessage.ofSize packetSize ss.length).copyBody ss
  return r.sendMessage uep (msg.withListenPort listenPort).encodeHeader

/-- What a node has sent, one message after the other. -/
def handAll (r : Registry) : List Event → Except Fault Registry
  | [] => .ok r
  | .delivered m uep :: es => do handAll (← r.hand serialize listenPort m uep) es
  | .overrun _ _ :: _ => .error .undefined
  | .request _ :: es => handAll r es
  | .handed _ _ :: es => handAll r es

end Registry

namespace Sockets

variable {ι : Type} [DecidableEq ι] {p : Peers ι} {serialize : MessageProto → List UInt8}

/-- The sessions of all nodes. -/
def ends (w : Sockets ι) : Ends (ι × Nat) where
  session x := (w.registry x.1).sessions[x.2]?
  peer := w.peer
  taken := w.taken

/-- The runs of nodes that start with these backups, as far as nothing is undefined: what the nodes
were called for, how many messages have been handled, and what it has come to. -/
inductive Run (p : Peers ι) (serialize : MessageProto → List UInt8) (contacts : ι → Contacts) :
    List (ι × Node.Input) → Nat → Sockets ι → Prop where
  | start {net : Network ι} {registry : ι → Registry} (maxRecords : ι → Nat) (storage : ι → Tables)
      (out : ι → Except Fault Unit)
      (run : ∀ i, Act.exec (Node.restoreFromBackup (p.world i))
        (Node.initial (p.key i) (maxRecords i) (storage i) (contacts i)) = (out i, net.nodes i))
      (stopped : ∀ i, i ∈ net.down ↔ out i ≠ .ok ())
      (hands : ∀ i, Registry.handAll serialize (p.listen i).port {} (net.nodes i).log = .ok (registry i)) :
      Run p serialize contacts [] 0 ⟨net, registry, fun _ => none, fun _ => 0⟩
  /-- A node runs something. When it is told of a disconnection is left open. -/
  | act {calls : List (ι × Node.Input)} {n : Nat} {w : Sockets ι} {i : ι} {input : Node.Input}
      {out : Except Fault Unit} {s : Node} {r : Registry} (run : Run p serialize contacts calls n w)
      (up : i ∉ w.net.down) (inner : ∀ ep body, input ≠ .receive ep body)
      (acts : Act.exec (input.run (p.world i)) (w.net.nodes i) = (out, s))
      (hands : Registry.handAll serialize (p.listen i).port (w.registry i)
        ((w.net.nodes i).since s) = .ok r) :
      Run p serialize contacts (calls ++ [(i, input)]) n
        { w with net := w.net.after i out s, registry := Function.update w.registry i r }
  /-- An operation of a session is complete. What has been read is what was written. -/
  | completes {calls : List (ι × Node.Input)} {n : Nat} {w : Sockets ι} {i : ι} {k : Nat} {a : Arrival}
      {e : Session.Event} {r : Registry} (run : Run p serialize contacts calls n w)
      (up : i ∉ w.net.down) (is : a.event = some (k, e)) (other : ∀ threw, e ≠ .handled threw)
      (comes : e.input <+: w.ends.coming (i, k))
      (stepped : (w.registry i).step packetSize a = some r) :
      Run p serialize contacts calls n
        { w with
          registry := Function.update w.registry i r
          taken := Function.update w.taken (i, k) (w.taken (i, k) + e.input.length) }
  /-- A node accepts the connection of a session that connects to the endpoint it listens on. -/
  | accepts {calls : List (ι × Node.Input)} {n : Nat} {w : Sockets ι} {i j : ι} {k : Nat} {s : Session}
      (remote : Endpoint) (attached : Bool) (run : Run p serialize contacts calls n w)
      (up : j ∉ w.net.down) (here : w.ends.session (i, k) = some s) (alone : w.peer (i, k) = none)
      (calls' : s.connect = true) (ep : s.ep = p.listen j)
      (address : remote.address = (p.listen i).address) :
      Run p serialize contacts calls n
        { w with
          registry := Function.update w.registry j ((w.registry j).handleAccept remote attached)
          peer := Function.update (Function.update w.peer (i, k) (some (j, (w.registry j).sessions.length)))
            (j, (w.registry j).sessions.length) (some (i, k)) }
  /-- `got_message_callback_` handles a message, and returns or throws. -/
  | receives {calls : List (ι × Node.Input)} {n : Nat} {w : Sockets ι} {i : ι} {k : Nat} {s : Session}
      {out : Except Fault Unit} {s' : Node} {r r' : Registry} {threw : Bool}
      (run : Run p serialize contacts calls n w) (up : i ∉ w.net.down)
      (here : w.ends.session (i, k) = some s) (calls' : .message ∈ s.pending)
      (handles : Act.exec (Node.handleReceive (p.world i) s.ep s.readMsg.body) (w.net.nodes i) = (out, s'))
      (hands : Registry.handAll serialize (p.listen i).port (w.registry i)
        ((w.net.nodes i).since s') = .ok r)
      (ends : threw = true ↔ out ≠ .ok ()) (returns : r.step packetSize (.handled k threw) = some r') :
      Run p serialize contacts calls (n + 1)
        { w with net := w.net.after i out s', registry := Function.update w.registry i r' }

end Sockets

end MiniDht
