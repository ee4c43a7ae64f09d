import MiniDht.Network.Carrying
import MiniDht.Node.Pings

/-!
# The network over its sessions

What becomes of nodes that are connected by sessions is what becomes of them over a transport
that delivers a message once at most (`Run.simulates`). So what holds of the abstract network
holds of the one that is built.
-/

namespace MiniDht

open Lib Session

/-- What an arrival is to a session hands no message to it. -/
theorem Arrival.delivery_none {a : Arrival} {k : Nat} {e : Session.Event} (is : a.event = some (k, e)) :
    e.delivery = none := by
  cases a with
  | accepted | sent => cases is
  | connected | header | body | handled | written =>
    cases is
    rfl

namespace Registry

variable {r : Registry} {k : Nat} {s : Session}

theorem step_header (here : r.sessions[k]? = some s) (reading : .readHeader ∈ s.pending)
    (bytes : { bytes : List UInt8 // bytes.length = headerLength }) :
    ∃ r', r.step packetSize (.header k (some bytes) true) = some r' ∧ r'.sessions =
      r.sessions.set k (Session.handleReadHeader packetSize
        { s with pending := s.pending.erase .readHeader } (some bytes) true) := by
  refine ⟨_, ?_, handleReadHeader_sessions ..⟩
  rw [step, completes, here]
  simp only [if_pos reading]
  rfl

theorem step_body {bytes : List UInt8} (here : r.sessions[k]? = some s) (reading : .readBody ∈ s.pending)
    (asked : bytes.length = s.readMsg.bodyLength) :
    ∃ r', r.step packetSize (.body k (some bytes)) = some r' ∧ r'.sessions = r.sessions.set k
      (Session.handleReadBody { s with pending := s.pending.erase .readBody } (some bytes)) := by
  have all : ∀ b ∈ some bytes, b.length = s.readMsg.bodyLength := fun b mem => Option.some.inj mem ▸ asked
  refine ⟨_, ?_, handleReadBody_sessions ..⟩
  rw [step, completes, here]
  simp only [if_pos reading]
  show ((guard _ : Option Unit).bind fun _ => _) = _
  rw [guard, if_pos all]
  rfl

theorem step_handled (here : r.sessions[k]? = some s) (calls : .message ∈ s.pending) (threw : Bool) :
    ∃ r', r.step packetSize (.handled k threw) = some r' := by
  refine ⟨r.put k (Session.messageHandled { s with pending := s.pending.erase .message } threw), ?_⟩
  rw [step, completes, here]
  simp only [if_pos calls]
  rfl

theorem there_set {s' : Session} (here : r.sessions[k]? = some s) {r' : Registry}
    (sessions : r'.sessions = r.sessions.set k s') : r'.sessions[k]? = some s' := by
  rw [sessions, List.getElem?_set_self (List.getElem?_eq_some_iff.mp here).1]

end Registry

namespace Sockets

variable {ι : Type} [DecidableEq ι] {p : Peers ι} {serialize : MessageProto → List UInt8}

/-- What `ParseFromIstream` reads of a message that was sent is the message. -/
def Reads (p : Peers ι) (serialize : MessageProto → List UInt8) (net : Network ι) : Prop :=
  ∀ j m, net.Sent j m → ∀ i, (p.world i).parse (serialize m) = (true, m)

/-- The nodes start one after the other. -/
theorem carries_start [Fintype ι] {net : Network ι} {registry : ι → Registry}
    (hands : ∀ i, Registry.handAll serialize (p.listen i).port {} (net.nodes i).log = .ok (registry i)) :
    ∃ told, Carries p serialize (Sockets.mk net registry (fun _ => none) fun _ => 0).ends told
      (∑ i, Traffic.given i (net.nodes i).log) := by
  have some (S : Finset ι) : ∃ told, Carries p serialize
      (Sockets.mk net (fun i => if i ∈ S then registry i else {}) (fun _ => none) fun _ => 0).ends told
      (∑ i ∈ S, Traffic.given i (net.nodes i).log) := by
    induction S using Finset.induction_on with
    | empty =>
      refine ⟨fun _ => [], ⟨⟨?_, ?_, ?_, ?_⟩, ?_, ?_, ?_⟩⟩
      · exact fun _ _ none => nomatch none
      · exact fun _ _ _ _ none => nomatch none
      · intro x s here
        cases here
      · exact fun _ _ => ⟨rfl, rfl⟩
      · exact fun _ _ none => nomatch none
      · exact fun _ _ _ none => nomatch none
      · intro S
        simp [left]
    | insert i S fresh ih =>
      obtain ⟨told, carries⟩ := ih
      have first : Registry.handAll serialize (p.listen i).port
          ((fun i => if i ∈ S then registry i else {}) i) (net.nodes i).log = .ok (registry i) := by
        simp only [if_neg fresh]
        exact hands i
      obtain ⟨told', carries'⟩ := carries.handAll first
      have whole : Function.update (fun i => if i ∈ S then registry i else {}) i (registry i) =
          fun j => if j ∈ insert i S then registry j else {} := by
        funext j
        by_cases same : j = i
        · subst same
          rw [Function.update_self, if_pos (Finset.mem_insert_self j S)]
        · rw [Function.update_of_ne same]
          simp [same]
      rw [put, whole] at carries'
      rw [Finset.sum_insert fresh]
      exact ⟨told', carries'⟩
  have all := some Finset.univ
  simpa using all

/-- A run of the nodes over their sessions is one of the abstract network. -/
theorem Run.simulates [Fintype ι] {contacts : ι → Contacts} {calls : List (ι × Node.Input)} {n : Nat}
    {w : Sockets ι} (run : Run p serialize contacts calls n w) (reads : Reads p serialize w.net) :
    ∃ flight told, Traffic.Run p contacts calls n 0 ⟨w.net, flight⟩ ∧
      Carries p serialize w.ends told flight := by
  induction run with
  | start maxRecords storage out run stopped hands =>
    obtain ⟨told, carries⟩ := carries_start hands
    exact ⟨_, told, .start maxRecords storage out run stopped, carries⟩
  | @act calls n w i input out s r run up inner acts hands ih =>
    obtain ⟨l, log⟩ := Traffic.log_grows (w := p.world i) input (w.net.nodes i)
    rw [acts] at log
    obtain ⟨flight, told, abstract, carries⟩ := ih fun j m sent => reads j m (Traffic.sent_after sent log)
    obtain ⟨told', carries'⟩ := carries.handAll hands
    exact ⟨_, told', abstract.act up inner acts, carries'⟩
  | @completes calls n w i k a e r run up is other comes stepped ih =>
    obtain ⟨flight, told, abstract, carries⟩ := ih reads
    obtain ⟨s, s', here, step, sessions⟩ := Registry.step_event stepped is
    let taken := Function.update w.taken (i, k) (w.taken (i, k) + e.input.length)
    have ends : Sockets.ends ⟨w.net, Function.update w.registry i r, w.peer, taken⟩ =
        w.ends.stepped (i, k) s' e :=
      congrArg (fun c : Ends (ι × Nat) => { c with taken := taken }) (ends_set here sessions)
    have quiet : e.delivery.toList = [] := by rw [Arrival.delivery_none is]; rfl
    have moved := carries.event (x := (i, k)) here step comes (step_heard step other) [] quiet
      (List.forall_mem_nil _)
    rw [List.map_nil, Multiset.coe_nil, zero_add, ← ends] at moved
    exact ⟨flight, _, abstract, moved⟩
  | @accepts calls n w i j k s remote attached run up here alone calls' ep address ih =>
    obtain ⟨flight, told, abstract, carries⟩ := ih reads
    let s' : Session := if attached then { remote := remote : Session }.start else { remote := remote }
    let y := (j, (w.registry j).sessions.length)
    have new : Lived packetSize [] s' := by
      cases attached with
      | true => exact .accepted remote
      | false => exact .created remote
    have faces' : Faces (p.listen i) s' := by
      cases attached with
      | true => exact ⟨nofun, fun _ => address⟩
      | false => exact ⟨nofun, fun _ => address⟩
    have free : w.ends.session y = none := List.getElem?_eq_none le_rfl
    have other : (i, k) ≠ y := fun same => by
      rw [same, free] at here
      cases here
    have alone' : w.peer y = none := by
      cases peer : w.peer y with
      | none => rfl
      | some z =>
        obtain ⟨-, -, s₀, there⟩ := carries.joined.paired y z peer
        rw [free] at there
        cases there
    have unsent : told y = [] := List.map_eq_nil_iff.mp (carries.joined.empty y free).2
    have here' : (w.ends.put y s').session (i, k) = some s := (Function.update_of_ne other ..).trans here
    have joined := (carries.begin free new).join here' alone (Function.update_self ..) alone' new unsent
      other ⟨fun _ => ep, fun accepted => by rw [calls'] at accepted; cases accepted⟩ faces'
    have ends := ends_append (w := w) (i := j) (r := (w.registry j).handleAccept remote attached) (s := s') rfl
    rw [← ends] at joined
    exact ⟨flight, told, abstract, joined⟩
  | @receives calls n w i k s out s' r r' threw run up here calls' handles hands ends returns ih =>
    obtain ⟨l, log⟩ := Traffic.log_grows (w := p.world i) (.receive s.ep s.readMsg.body) (w.net.nodes i)
    rw [Node.Input.run, handles] at log
    obtain ⟨flight, told, abstract, carries⟩ := ih fun j m sent => reads j m (Traffic.sent_after sent log)
    -- the message as it is before the node answers
    obtain ⟨y, m, rest, peer, body, ep, rfl, -⟩ := carries.handled here calls' (step_handled calls' threw)
    obtain ⟨told', carries'⟩ := carries.handAll hands
    -- and after the answers have been handed to the sessions
    obtain ⟨s₁, here₁, alike, calls₁⟩ := handAll_alike hands here calls'
    obtain ⟨s₂, s₃, here₂, step, sessions⟩ := Registry.step_event returns rfl
    obtain rfl := Option.some.inj (here₁.symm.trans here₂)
    have here₃ : (w.put i r).ends.session (i, k) = some s₁ := by
      show ((w.put i r).registry i).sessions[k]? = some s₁
      rw [put_registry_self]
      exact here₁
    obtain ⟨y', m', rest', peer', body', -, flight', carries''⟩ := carries'.handled here₃ calls₁ step
    obtain rfl : y' = y := Option.some.inj (peer'.symm.trans peer)
    have sent : (w.net.after i out s').Sent y'.1 m ∧ (w.net.after i out s').Sent y'.1 m' := by
      have all := Traffic.allSent_after out abstract.reachable.2 log
      refine ⟨all (y'.1, m) (Multiset.mem_add.mpr (.inr (Multiset.mem_cons_self _ _))), all (y'.1, m') ?_⟩
      rw [flight']
      exact Multiset.mem_cons_self _ _
    have same : m' = m := by
      have bytes : serialize m' = serialize m := by rw [← body', alike.readMsg, body]
      have parsed := reads y'.1 m' sent.2 i
      rw [bytes, reads y'.1 m sent.1 i] at parsed
      exact (Prod.mk.inj parsed).2.symm
    subst same
    rw [Multiset.add_cons, Multiset.cons_inj_right] at flight'
    rw [ep, body] at handles
    refine ⟨rest', told', ?_, ?_⟩
    · rw [← flight']
      exact abstract.arrive (.handled up (reads y'.1 m' sent.1 i) handles)
    · have ends := ends_set here₃ (r := r') (s := s₃) (by rw [put_registry_self]; exact sessions)
      rw [put_put] at ends
      rw [Ends.stepped_of_input _ _ _ rfl, ← ends] at carries''
      exact carries''

/-- What two nodes are sent when one pings the other. -/
def pingPackets : List MessageProto :=
  [(Peers.pair []).hello false 0, (Peers.pair []).welcome true false 0]

/-- The two messages, each a packet of one byte. -/
def pingBody (m : MessageProto) : List UInt8 := if m.type = .sendPing then [0] else [1]

/-- A node is called to ping another, which gets the ping over a session of its own, and answers. -/
theorem ping_handled : ∃ w : Sockets Bool,
    Run (.pair pingPackets) pingBody (fun _ => [])
        [(false, .pingEndpoint ((Peers.pair []).listen true).proto 0)] 1 w ∧
      Reads (.pair pingPackets) pingBody w.net ∧
      ∃ e ∈ (w.net.nodes true).contactList.entries, e.2.key = (Peers.pair []).id false := by
  let p : Peers Bool := .pair pingPackets
  let hello : MessageProto := p.hello false 0
  let welcome : MessageProto := p.welcome true false 0
  let fresh (i : Bool) : Node :=
    { Node.initial (p.key i) 10 {} [] with dbBackup := { tables := [], calls := 1 } }
  have start : Run p pingBody (fun _ => []) [] 0
      ⟨{ nodes := fresh, down := ∅ }, fun _ => {}, fun _ => none, fun _ => 0⟩ :=
    .start (fun _ => 10) (fun _ => {}) (fun _ => .ok ())
      (fun _ => Node.exec_restoreFromBackup_empty Sqlite.inOrder_sound _ 10 {}) (by simp) fun _ => rfl
  let s : Node := (Node.pinged (p.world false) (fresh false) 0).logged
    (Node.handOver (p.world false) hello (p.listen true).proto)
  have pings : Act.exec ((Node.Input.pingEndpoint (p.listen true).proto 0).run (p.world false))
      (fresh false) = (.ok (), s) := by
    rw [Node.Input.run, Node.exec_sendPingTo (p.listen true).proto_named]
    rfl
  have log : s.log = (fresh false).log ++
      Node.handOver (p.world false) hello (p.listen true).proto := rfl
  have since : (fresh false).since s =
      [.handed hello (p.listen true).proto, .delivered hello (p.listen true)] := by
    rw [Node.since_of_log log, Node.handOver, Peers.pair_finds]
    rfl
  have called := start.act (i := false) (fun down => down) (by simp) pings (by rw [since]; rfl)
  have accepted := called.accepts (i := false) (j := true) (k := 0) (p.listen false) true
    (by simp [Network.after, Survives]) rfl rfl rfl rfl rfl
  let frame : BasicMessage := frameOf p pingBody false hello
  -- the header of the ping, its body, and the call for it
  let r₁ : Registry := ({} : Registry).handleAccept (p.listen false) true
  let s₀ : Session := (({ remote := p.listen true } : Session).connectTo (p.listen true)).deliver frame
  let s₁ : Session := { remote := p.listen false : Session }.start
  have read : Session.handleReadHeader packetSize { s₁ with pending := s₁.pending.erase .readHeader }
      (some ⟨frame.header, BasicMessage.length_header _⟩) true = _ :=
    handleReadHeader_frame (by decide) (by decide : [(0 : UInt8)].length ≤ _) rfl
  obtain ⟨r₂, stepped₂, sessions₂⟩ := Registry.step_header (r := r₁) (k := 0) (s := s₁) rfl (by decide)
    ⟨frame.header, BasicMessage.length_header _⟩
  rw [read] at sessions₂
  have header := accepted.completes (i := true) (k := 0) (by simp [Network.after, Survives]) rfl (by simp)
    (by decide) stepped₂
  have stream : streamOf s₀.handedOver = frame.header ++ [0] := by decide
  have there₂ : (Function.update (fun _ => ({} : Registry)) false
      (Registry.sendMessage {} (p.listen true) frame) false).sessions[0]? = some s₀ := rfl
  have here₂ := Registry.there_set (r := r₁) (s := s₁) rfl sessions₂
  obtain ⟨r₃, stepped₃, sessions₃⟩ :=
    Registry.step_body here₂ (by decide) (by decide : [(0 : UInt8)].length = _)
  have body := header.completes (i := true) (k := 0) (by simp [Network.after, Survives]) rfl (by simp)
    (by
      rw [Ends.coming_peer (y := (false, 0)) rfl there₂, stream]
      show [0] <+: (frame.header ++ [0]).drop (0 + frame.header.length)
      rw [Nat.zero_add, List.drop_left]) stepped₃
  have here₃ := Registry.there_set here₂ sessions₃
  -- the node answers while the call is under way
  let s' : Node := Node.afterFirst (p.world true) (fresh true) (p.listen false) hello
  have handles : Act.exec (Node.handleReceive (p.world true) (p.listen false) [0]) (fresh true) =
      (.ok (), s') :=
    Node.exec_receive_afterFirst rfl _ _ rfl rfl (by decide) (by decide)
  have since' : (fresh true).since s' = [.request welcome, .handed welcome (p.listen false).proto,
      .delivered welcome (p.listen false)] :=
    Node.since_afterFirst (by decide) (Peers.pair_finds pingPackets true false) (Nat.zero_le _)
  have answers : Registry.handAll pingBody (p.listen true).port r₃ ((fresh true).since s') =
      .ok (r₃.sendMessage (p.listen false) (frameOf p pingBody true welcome)) := by
    rw [since']
    rfl
  obtain ⟨s₄, here₄, -, calls₄⟩ := handAll_alike answers here₃ (by decide)
  obtain ⟨r₅, stepped₅⟩ := Registry.step_handled here₄ calls₄ false
  have answered := body.receives (i := true) (k := 0) (by simp [Network.after, Survives]) here₃
    (by decide) handles answers (by simp) stepped₅
  refine ⟨_, answered, ?_, _, List.mem_singleton_self _, rfl⟩
  have reads (m : MessageProto) (known : m = hello ∨ m = welcome) (i : Bool) :
      (p.world i).parse (pingBody m) = (true, m) := by
    rcases known with rfl | rfl <;> rfl
  rintro (_ | _) m ⟨uep, seen⟩ i
  · replace seen : Event.delivered m uep ∈ (fresh false).since s := seen
    rw [since] at seen
    obtain ⟨rfl, -⟩ : m = hello ∧ uep = p.listen true := by simpa using seen
    exact reads _ (.inl rfl) i
  · replace seen : Event.delivered m uep ∈ (fresh true).since s' := seen
    rw [since'] at seen
    obtain ⟨rfl, -⟩ : m = welcome ∧ uep = p.listen false := by simpa using seen
    exact reads _ (.inr rfl) i

/-- **Nodes over their sessions.** In whatever order connections are made, writes and reads end,
succeed or fail, and the nodes run: what has become of the nodes is what becomes of them in a
network that delivers each message once at most, as it was sent, and from the endpoint its sender
listens on. As many messages have arrived there as have been handled here; those that a session
keeps for itself stay in flight. -/
theorem sockets_refine [Fintype ι] {contacts : ι → Contacts} {calls : List (ι × Node.Input)} {n : Nat}
    {w : Sockets ι} (run : Run p serialize contacts calls n w) (reads : Reads p serialize w.net) :
    ∃ flight, Traffic.Run p contacts calls n 0 ⟨w.net, flight⟩ := by
  obtain ⟨flight, told, abstract, -⟩ := run.simulates reads
  exact ⟨flight, abstract⟩

/-- The theorem at two nodes, one of which has got the ping of the other. -/
theorem sockets_refine_ping : ∃ w : Sockets Bool,
    Run (.pair pingPackets) pingBody (fun _ => [])
        [(false, .pingEndpoint ((Peers.pair []).listen true).proto 0)] 1 w ∧
      ∃ flight, Traffic.Run (.pair pingPackets) (fun _ => [])
        [(false, .pingEndpoint ((Peers.pair []).listen true).proto 0)] 1 0 ⟨w.net, flight⟩ := by
  obtain ⟨w, run, reads, -⟩ := ping_handled
  exact ⟨w, run, sockets_refine run reads⟩

/-- **What nodes learn over their sessions.** The contacts of every node are nodes, each with the
endpoint it listens on, and none of them is the node itself; and no more messages are ever handled
than the calls of the clients and the backups account for. -/
theorem sockets_sound [Fintype ι] {contacts : ι → Contacts} {calls : List (ι × Node.Input)} {n : Nat}
    {w : Sockets ι} (run : Run p serialize contacts calls n w) (reads : Reads p serialize w.net) :
    (∀ i, ∀ e ∈ (w.net.nodes i).contactList.entries,
      (∃! j, p.IsNode e.2.key e.2.ep j) ∧ e.2.key ≠ p.id i) ∧
    n ≤ ∑ i, 2 * (contacts i).length + (calls.map fun call => call.2.budget (Fintype.card ι)).sum := by
  obtain ⟨flight, told, abstract, -⟩ := run.simulates reads
  refine ⟨fun i e member => ?_, (Nat.le_add_right n _).trans abstract.potential_le⟩
  have truthful := abstract.reachable.1.truthful i
  refine ⟨(truthful.contacts e member).unique, ?_⟩
  rw [← truthful.table.localKey_eq]
  exact truthful.table.filed.others e member

/-- The theorem at two nodes, one of which has the other for a contact. -/
theorem sockets_sound_ping : ∃ w : Sockets Bool,
    Run (.pair pingPackets) pingBody (fun _ => [])
        [(false, .pingEndpoint ((Peers.pair []).listen true).proto 0)] 1 w ∧
      ∃ e ∈ (w.net.nodes true).contactList.entries, e.2.key = (Peers.pair []).id false ∧
        ∃! j, (Peers.pair pingPackets).IsNode e.2.key e.2.ep j := by
  obtain ⟨w, run, reads, e, member, key⟩ := ping_handled
  exact ⟨w, run, e, member, key, ((sockets_sound run reads).1 true e member).1⟩

end Sockets

end MiniDht
