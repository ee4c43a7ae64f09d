import MiniDht.Node.Contacts
import MiniDht.Node.Meeting

/-!
# A network of nodes

Nodes that all run the program exchange messages over a transport that delivers what was
sent any number of times, in any order or never, and tells the receiver the endpoint the
sender listens on. What the nodes know of each other is then true (`routing_truthful`).
-/

namespace MiniDht

open Lib

/-- Who takes part: each node draws on a world of its own, has an id of its own, and listens
on an endpoint of its own. -/
structure Peers (ι : Type) where
  world : ι → World
  key : ι → BitVec keySize
  listen : ι → Endpoint
  distinct : Function.Injective fun i => keyToString (key i)
  apart : Function.Injective listen

namespace Peers

variable {ι : Type} (p : Peers ι)

/-- The id of a node, as messages carry it. -/
def id (i : ι) : String := keyToString (p.key i)

/-- The key and endpoint of a node. -/
def IsNode (k : String) (ep : EndpointProto) (i : ι) : Prop :=
  k = p.id i ∧ ep = (p.listen i).proto

/-- The key and endpoint of some node. -/
def Genuine (k : String) (ep : EndpointProto) : Prop := ∃ i, p.IsNode k ep i

/-- The ping of a node, to an endpoint. -/
def hello (p : Peers ι) (i : ι) (t : Token) : MessageProto :=
  { type := .sendPing, fromId := p.id i, token := t }

/-- The answer of a node to the ping of another. -/
def welcome (i j : ι) (t : Token) : MessageProto :=
  { type := .replyPing, fromId := p.id i, toId := p.id j, token := t }

variable {p}

theorem Genuine.unique {k : String} {ep : EndpointProto} (genuine : p.Genuine k ep) :
    ∃! i, p.IsNode k ep i := by
  obtain ⟨i, here⟩ := genuine
  exact ⟨i, here, fun j there => p.distinct (there.1.symm.trans here.1)⟩

/-- Two nodes, each of which reads a packet of one byte as one of the given messages. -/
def pair (packets : List MessageProto) : Peers Bool where
  world _ := .simple packets
  key i := if i then 2 else 1
  listen i := { address := if i then "10.0.0.2" else "10.0.0.1", port := 4000
                printed := by cases i <;> decide }
  distinct := by
    have differ : keyToString 1 ≠ keyToString 2 := by decide
    intro i j
    cases i <;> cases j
    · exact fun _ => rfl
    · exact fun same => absurd same differ
    · exact fun same => absurd same differ.symm
    · exact fun _ => rfl
  apart := by
    intro i j
    cases i <;> cases j <;> simp

theorem pair_finds (packets : List MessageProto) (i j : Bool) :
    ((pair packets).world i).resolve ((pair packets).listen j).proto =
      some ((pair packets).listen j) := by
  cases j
  · exact (by decide : (World.simple []).resolve ((pair []).listen false).proto =
      some ((pair []).listen false))
  · exact (by decide : (World.simple []).resolve ((pair []).listen true).proto =
      some ((pair []).listen true))

end Peers

/-- The states of all nodes, and which of them have stopped. Messages in flight are those
in the logs: what was sent may still arrive. -/
structure Network (ι : Type) where
  nodes : ι → Node
  down : Set ι

namespace Network

variable {ι : Type} [DecidableEq ι] {p : Peers ι}

/-- The network after a node has run something. -/
def after (net : Network ι) (i : ι) (out : Except Fault Unit) (s : Node) : Network ι where
  nodes := Function.update net.nodes i s
  down := { j | j ∈ net.down ∨ j = i ∧ ¬ Survives out }

theorem nodes_after (net : Network ι) (i : ι) (out : Except Fault Unit) (s : Node) (j : ι) :
    (net.after i out s).nodes j = if j = i then s else net.nodes j :=
  Function.update_apply net.nodes i s j

/-- A message was given to the transport by a node. -/
def Sent (net : Network ι) (j : ι) (m : MessageProto) : Prop :=
  ∃ uep, Event.delivered m uep ∈ (net.nodes j).log

/-- The states of a network that started with empty contact lists. -/
inductive Reachable (p : Peers ι) : Network ι → Prop where
  | start {net : Network ι} (maxRecords : ι → Nat) (storage : ι → Tables) (contacts : ι → Contacts)
      (out : ι → Except Fault Unit)
      (run : ∀ i, Act.exec (Node.restoreFromBackup (p.world i))
        (Node.initial (p.key i) (maxRecords i) (storage i) (contacts i)) = (out i, net.nodes i))
      (stopped : ∀ i, i ∈ net.down ↔ out i ≠ .ok ()) : Reachable p net
  /-- A message that was sent arrives, from the endpoint its sender listens on. -/
  | arrive {net : Network ι} {i j : ι} {m : MessageProto} {body : List UInt8}
      {out : Except Fault Unit} {s : Node} (reach : Reachable p net) (up : i ∉ net.down)
      (sent : net.Sent j m) (packet : (p.world i).parse body = (true, m))
      (run : Act.exec (Node.handleReceive (p.world i) (p.listen j) body) (net.nodes i) = (out, s)) :
      Reachable p (net.after i out s)
  /-- A node runs something else. -/
  | act {net : Network ι} {i : ι} {input : Node.Input} {out : Except Fault Unit} {s : Node}
      (reach : Reachable p net) (up : i ∉ net.down)
      (inner : ∀ ep body, input ≠ .receive ep body)
      (run : Act.exec (input.run (p.world i)) (net.nodes i) = (out, s)) :
      Reachable p (net.after i out s)

/-- A step of one node leaves the others as they are. -/
theorem truthful_after {net : Network ι} {i : ι} {out : Except Fault Unit} {s : Node}
    (truthful : ∀ j, Node.Truthful p.Genuine (p.id j) (net.nodes j))
    (here : Node.Truthful p.Genuine (p.id i) s) (j : ι) :
    Node.Truthful p.Genuine (p.id j) ((net.after i out s).nodes j) := by
  rw [nodes_after]
  split
  · rename_i same
    rw [same]
    exact here
  · exact truthful j

theorem Reachable.truthful {net : Network ι} (reach : Reachable p net) :
    ∀ i, Node.Truthful p.Genuine (p.id i) (net.nodes i) := by
  induction reach with
  | start maxRecords storage contacts out run stopped =>
    intro i
    have kept := Node.Truthful.restoreFromBackup (w := p.world i) _
      (Node.Truthful.initial (p.key i) (maxRecords i) (storage i) (contacts i) :
        Node.Truthful p.Genuine _ _)
    rw [run i] at kept
    exact kept
  | @arrive net i j m body out s reach up sent packet run ih =>
    refine truthful_after ih ?_
    obtain ⟨uep, seen⟩ := sent
    obtain ⟨sender, listed⟩ := (ih j).sent _ seen
    have tells : (Node.Input.receive (p.listen j) body).Tells p.Genuine (p.world i) := by
      rw [Node.Input.Tells, Node.Tells, packet]
      exact ⟨⟨j, sender, rfl⟩, listed⟩
    have kept := Node.Truthful.run tells _ (ih i)
    rw [Node.Input.run, run] at kept
    exact kept
  | @act net i input out s reach up inner run ih =>
    refine truthful_after ih ?_
    have tells : input.Tells p.Genuine (p.world i) := by
      cases input with
      | receive ep body => exact absurd rfl (inner ep body)
      | _ => trivial
    have kept := Node.Truthful.run tells _ (ih i)
    rw [run] at kept
    exact kept

/-- In every run of any number of nodes, each contact in a contact list, on a short list or
in a reply under way is the key and the endpoint of one node, and no node has itself as a
contact. -/
theorem routing_truthful {net : Network ι} (reach : Reachable p net) (i : ι) :
    (∀ e ∈ (net.nodes i).contactList.entries, ∃! j, p.IsNode e.2.key e.2.ep j) ∧
    (∀ t q, (net.nodes i).mapSearch t = some q →
      ∀ c ∈ q.shortList, ∃! j, p.IsNode c.key c.ep j) ∧
    (∀ m, net.Sent i m → m.type = .replyFindNode →
      ∀ c ∈ m.contactList, ∃! j, p.IsNode c.key c.ep j) ∧
    ∀ e ∈ (net.nodes i).contactList.entries, e.2.key ≠ p.id i := by
  have truthful := reach.truthful i
  refine ⟨?_, ?_, ?_, ?_⟩
  · exact fun e member => (truthful.contacts e member).unique
  · exact fun t q found c member => (truthful.searches t q found c member).unique
  · rintro m ⟨uep, seen⟩ - c member
    exact ((truthful.sent _ seen).2 c member).unique
  · intro e member
    rw [← truthful.table.localKey_eq]
    exact truthful.table.filed.others e member

/-- Of two nodes that have just started, one pings the endpoint of the other. -/
theorem routing_truthful_ping : ∃ (p : Peers Bool) (net : Network Bool),
    (net.nodes true).contactList.entries ≠ [] ∧
      ∀ e ∈ (net.nodes true).contactList.entries, ∃! j, p.IsNode e.2.key e.2.ep j := by
  let hello : MessageProto := { type := .sendPing, fromId := keyToString 1 }
  let p : Peers Bool :=
    { world := fun i => if i then .simple [hello] else .simple []
      key := fun i => if i then 2 else 1
      listen := fun i => { address := if i then "10.0.0.2" else "10.0.0.1", port := 4000
                           printed := by cases i <;> decide }
      distinct := by
        have differ : keyToString 1 ≠ keyToString 2 := by decide
        intro i j
        cases i <;> cases j
        · exact fun _ => rfl
        · exact fun same => absurd same differ
        · exact fun same => absurd same differ.symm
        · exact fun _ => rfl
      apart := by
        intro i j
        cases i <;> cases j <;> simp }
  have sound (i : Bool) : (p.world i).backup.Sound := by
    cases i <;> exact Sqlite.inOrder_sound
  let fresh (i : Bool) : Node :=
    { Node.initial (p.key i) 10 {} [] with dbBackup := { tables := [], calls := 1 } }
  let net : Network Bool := { nodes := fresh, down := ∅ }
  have start : Reachable p net := .start (fun _ => 10) (fun _ => {}) (fun _ => []) (fun _ => .ok ())
    (fun i => Node.exec_restoreFromBackup_empty (sound i) (p.key i) 10 {}) (by simp [net])
  -- the ping goes out to the endpoint it was asked for
  let s : Node := (Node.pinged (p.world false) (fresh false) 0).logged
    (Node.handOver (p.world false) hello (p.listen true).proto)
  have pings : Act.exec ((Node.Input.pingEndpoint (p.listen true).proto 0).run (p.world false))
      (net.nodes false) = (.ok (), s) := by
    rw [Node.Input.run, Node.sendPingTo, assertNamed_named (p.listen true).proto_named,
      Act.exec_bind_ok (Act.exec_ofExcept _ _), Node.exec_catch_bind (Act.exec_get _),
      Node.exec_catch_bind (Node.exec_notePing _), Act.exec_catchStd,
      Node.exec_sendMessageTo (p.listen true).proto_named]
    rfl
  have reach := start.act (by simp [net]) (by simp) pings
  have sent : (net.after false (.ok ()) s).Sent false hello := by
    refine ⟨{ address := "10.0.0.2", port := 4000, printed := by decide }, ?_⟩
    have resolved : (p.world false).resolve (p.listen true).proto =
        some { address := "10.0.0.2", port := 4000, printed := by decide } := by decide
    rw [nodes_after, if_pos rfl]
    apply List.mem_append_right
    rw [Node.handOver, resolved]
    exact List.mem_cons_of_mem _ (List.mem_singleton_self _)
  have quiet : (net.after false (.ok ()) s).nodes true = fresh true := nodes_after ..
  obtain ⟨s', c, run, met⟩ := @Node.exec_receive_first (p.world true) (fresh true) rfl
    (p.listen false) [0] hello (by decide) rfl (by decide) (by decide)
  rw [← quiet] at run
  have reach' := reach.arrive (by simp [after, net, Survives]) sent (by decide) run
  refine ⟨p, _, ?_, (routing_truthful reach' true).1⟩
  rw [nodes_after, if_pos rfl, met.alone]
  exact List.cons_ne_nil _ _

end Network

end MiniDht
