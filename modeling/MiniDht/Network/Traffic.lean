import MiniDht.Lib.Loop
import MiniDht.Network
import MiniDht.Node.FindNode
import MiniDht.Node.Pings
import MiniDht.Node.Traffic

/-!
# The traffic of a network

A transport that delivers a message once at most. A message leads to others when it arrives,
but not for ever: every answer is lighter than what it answers, and a search asks no node
twice. So what the clients of a network call for bounds all it will ever send
(`traffic_bounded`).
-/

namespace MiniDht

open Lib

/-- A network, and the messages in flight, each with its sender: they have been sent, and
have neither arrived nor been lost. -/
structure Traffic (ι : Type) where
  net : Network ι
  flight : Multiset (ι × MessageProto)

namespace Peers

variable {ι : Type} [Fintype ι] (p : Peers ι)

/-- The ids of the nodes. -/
def ids : Finset String := Finset.univ.image p.id

theorem id_mem (i : ι) : p.id i ∈ p.ids := Finset.mem_image_of_mem _ (Finset.mem_univ i)

theorem mem_ids {k : String} {ep : EndpointProto} (genuine : p.Genuine k ep) : k ∈ p.ids := by
  obtain ⟨i, rfl, -⟩ := genuine
  exact p.id_mem i

theorem card_ids : p.ids.card = Fintype.card ι := Finset.card_image_of_injective _ p.distinct

end Peers

namespace Traffic

variable {ι : Type} [DecidableEq ι] {p : Peers ι}

/-- What a node has given to the transport. -/
def given (i : ι) (es : List Event) : Multiset (ι × MessageProto) :=
  (Node.delivered es).map fun packet => (i, packet.1)

/-- A message in flight arrives at some node. -/
inductive Arrives (p : Peers ι) : Traffic ι → Traffic ι → Prop where
  | handled {net : Network ι} {rest : Multiset (ι × MessageProto)} {i j : ι} {m : MessageProto}
      {body : List UInt8} {out : Except Fault Unit} {s : Node} (up : i ∉ net.down)
      (packet : (p.world i).parse body = (true, m))
      (run : Act.exec (Node.handleReceive (p.world i) (p.listen j) body) (net.nodes i) = (out, s)) :
      Arrives p ⟨net, (j, m) ::ₘ rest⟩ ⟨net.after i out s, given i ((net.nodes i).since s) + rest⟩

/-- A message in flight is lost. -/
inductive Loses : Traffic ι → Traffic ι → Prop where
  | lost {net : Network ι} {rest : Multiset (ι × MessageProto)} {x : ι × MessageProto} :
      Loses ⟨net, x ::ₘ rest⟩ ⟨net, rest⟩

/-- A message in flight arrives at some node, or is lost. -/
def Moves (p : Peers ι) (tr tr' : Traffic ι) : Prop := Arrives p tr tr' ∨ Loses tr tr'

/-- The runs of a network whose nodes start with these backups: what its nodes were called for,
how many messages have arrived and how many have been lost, and what it has come to. -/
inductive Run [Fintype ι] (p : Peers ι) (contacts : ι → Contacts) :
    List (ι × Node.Input) → Nat → Nat → Traffic ι → Prop where
  | start {net : Network ι} (maxRecords : ι → Nat) (storage : ι → Tables)
      (out : ι → Except Fault Unit)
      (run : ∀ i, Act.exec (Node.restoreFromBackup (p.world i))
        (Node.initial (p.key i) (maxRecords i) (storage i) (contacts i)) = (out i, net.nodes i))
      (stopped : ∀ i, i ∈ net.down ↔ out i ≠ .ok ()) :
      Run p contacts [] 0 0 ⟨net, ∑ i, given i (net.nodes i).log⟩
  | arrive {calls : List (ι × Node.Input)} {n lost : Nat} {tr tr' : Traffic ι}
      (run : Run p contacts calls n lost tr) (arrives : Arrives p tr tr') :
      Run p contacts calls (n + 1) lost tr'
  | lose {calls : List (ι × Node.Input)} {n lost : Nat} {tr tr' : Traffic ι}
      (run : Run p contacts calls n lost tr) (loses : Loses tr tr') :
      Run p contacts calls n (lost + 1) tr'
  | act {calls : List (ι × Node.Input)} {n lost : Nat} {net : Network ι}
      {flight : Multiset (ι × MessageProto)} {i : ι} {input : Node.Input} {out : Except Fault Unit}
      {s : Node} (run : Run p contacts calls n lost ⟨net, flight⟩) (up : i ∉ net.down)
      (inner : ∀ ep body, input ≠ .receive ep body)
      (acts : Act.exec (input.run (p.world i)) (net.nodes i) = (out, s)) :
      Run p contacts (calls ++ [(i, input)]) n lost
        ⟨net.after i out s, given i ((net.nodes i).since s) + flight⟩

/-! ## What is in flight was sent -/

/-- All messages in flight are in the log of their sender. -/
def AllSent (tr : Traffic ι) : Prop := ∀ x ∈ tr.flight, tr.net.Sent x.1 x.2

omit [DecidableEq ι] in
theorem mem_given {i : ι} {es : List Event} {x : ι × MessageProto} :
    x ∈ given i es ↔ x.1 = i ∧ ∃ uep, Event.delivered x.2 uep ∈ es := by
  obtain ⟨j, m⟩ := x
  simp only [given, Multiset.mem_coe, List.mem_map, Node.delivered, List.mem_filterMap]
  constructor
  · rintro ⟨⟨m', uep⟩, ⟨e, there, packet⟩, same⟩
    obtain ⟨rfl, rfl⟩ := Prod.mk.inj same
    cases e with
    | delivered m' uep' =>
      obtain ⟨rfl, rfl⟩ := Prod.mk.inj (Option.some.inj packet)
      exact ⟨rfl, uep', there⟩
    | request | handed | overrun => cases packet
  · rintro ⟨rfl, uep, there⟩
    exact ⟨(m, uep), ⟨_, there, rfl⟩, rfl⟩

/-- A node forgets nothing of what it has sent. -/
theorem log_grows {w : World} (input : Node.Input) (s : Node) :
    ∃ l, (Act.exec (input.run w) s).2.log = s.log ++ l := by
  have rule : Node.Allows w (fun s' : Node => ∃ l, s'.log = s.log ++ l) (fun _ => True)
      (fun _ _ => True) :=
    { toNotes := .of_book (fun _ _ _ _ _ h => h)
        (fun s' e h _ => h.imp' (· ++ [e]) fun l log => by rw [Node.logged_log, log, List.append_assoc])
        fun _ _ _ _ _ => trivial
      backup := fun _ _ h => h
      search := fun _ _ _ h _ => h
      done := fun _ _ h => h
      held := fun _ _ _ _ _ _ _ => trivial
      add := fun _ _ _ _ _ _ _ h _ _ => h
      drop := fun _ _ h => h
      look := fun _ _ h => h
      listed := fun _ _ _ _ => trivial }
  have tells : input.Tells (fun _ _ => True) w := by
    cases input with
    | receive ep body => exact ⟨trivial, fun _ _ => trivial⟩
    | _ => trivial
  exact rule.run (fun _ _ h => h) (fun _ _ h => h) (fun _ _ h => h) tells s ⟨[], by simp⟩

/-- What was sent stays sent when a node runs something. -/
theorem sent_after {net : Network ι} {i j : ι} {m : MessageProto} {l : List Event}
    {out : Except Fault Unit} {s : Node} (sent : net.Sent j m) (log : s.log = (net.nodes i).log ++ l) :
    (net.after i out s).Sent j m := by
  obtain ⟨uep, there⟩ := sent
  refine ⟨uep, ?_⟩
  rw [Network.nodes_after]
  split
  · rename_i same
    rw [log, ← same]
    exact List.mem_append_left _ there
  · exact there

/-- A node runs something, and what it sends is in flight as well. -/
theorem allSent_after {net : Network ι} {flight : Multiset (ι × MessageProto)} {i : ι} {l : List Event}
    (out : Except Fault Unit) {s : Node} (sent : AllSent ⟨net, flight⟩)
    (log : s.log = (net.nodes i).log ++ l) :
    AllSent ⟨net.after i out s, given i ((net.nodes i).since s) + flight⟩ := by
  rintro ⟨j, m⟩ member
  rcases Multiset.mem_add.mp member with new | old
  · obtain ⟨rfl, uep, there⟩ := mem_given.mp new
    refine ⟨uep, ?_⟩
    rw [Node.since_of_log log] at there
    rw [Network.nodes_after, if_pos rfl, log]
    exact List.mem_append_right _ there
  · exact sent_after (sent _ old) log

theorem Moves.allSent {tr tr' : Traffic ι} (moves : Moves p tr tr') (sent : tr.AllSent) :
    tr'.AllSent := by
  rcases moves with @⟨net, rest, i, j, m, body, out, s, up, packet, run⟩ | @⟨net, rest, x⟩
  · obtain ⟨l, log⟩ := log_grows (w := p.world i) (.receive (p.listen j) body) (net.nodes i)
    rw [Node.Input.run, run] at log
    exact allSent_after _ (fun x old => sent x (Multiset.mem_cons_of_mem old)) log
  · exact fun x old => sent x (Multiset.mem_cons_of_mem old)

theorem Moves.reachable {tr tr' : Traffic ι} (moves : Moves p tr tr') (sent : tr.AllSent)
    (reach : Network.Reachable p tr.net) : Network.Reachable p tr'.net := by
  rcases moves with ⟨up, packet, run⟩ | @⟨net, rest, x⟩
  · exact reach.arrive up (sent _ (Multiset.mem_cons_self _ _)) packet run
  · exact reach

theorem Run.reachable [Fintype ι] {contacts : ι → Contacts} {calls : List (ι × Node.Input)}
    {n lost : Nat} {tr : Traffic ι} (run : Run p contacts calls n lost tr) :
    Network.Reachable p tr.net ∧ tr.AllSent := by
  induction run with
  | start maxRecords storage out run stopped =>
    refine ⟨.start maxRecords storage contacts out run stopped, fun x member => ?_⟩
    obtain ⟨i, -, here⟩ := Multiset.mem_sum.mp member
    obtain ⟨rfl, uep, there⟩ := mem_given.mp here
    exact ⟨uep, there⟩
  | arrive run arrives ih =>
    have moves : Moves p _ _ := .inl arrives
    exact ⟨moves.reachable ih.2 ih.1, moves.allSent ih.2⟩
  | lose run loses ih =>
    have moves : Moves p _ _ := .inr loses
    exact ⟨moves.reachable ih.2 ih.1, moves.allSent ih.2⟩
  | @act calls n lost net flight i input out s run up inner acts ih =>
    obtain ⟨l, log⟩ := log_grows (w := p.world i) input (net.nodes i)
    rw [acts] at log
    exact ⟨ih.1.act up inner acts, allSent_after _ ih.2 log⟩

/-! ## What a network may still send -/

section Potential

variable [Fintype ι]

/-- What the messages in flight may lead to. -/
def flightWeight (n : Nat) (flight : Multiset (ι × MessageProto)) : Nat :=
  (flight.map fun x => x.2.weight n).sum

/-- The messages that may still move: what is in flight with all it leads to, and what the
searches may still send. -/
def potential (p : Peers ι) (tr : Traffic ι) : Nat :=
  ∑ i, Node.outstanding p.ids (tr.net.nodes i).mapSearch + flightWeight (Fintype.card ι) tr.flight

omit [DecidableEq ι] [Fintype ι] in
theorem flightWeight_given (n : Nat) (i : ι) (es : List Event) :
    flightWeight n (given i es) = Node.sentWeight n es := by
  simp only [flightWeight, given, Multiset.map_coe, Multiset.sum_coe, List.map_map]
  induction es with
  | nil => rfl
  | cons e es ih =>
    rw [Node.sentWeight, List.map_cons, List.sum_cons, ← Node.sentWeight, ← ih]
    cases e with
    | delivered m uep => rfl
    | request | handed | overrun => exact (Nat.zero_add _).symm

omit [DecidableEq ι] [Fintype ι] in
theorem flightWeight_add (n : Nat) (a b : Multiset (ι × MessageProto)) :
    flightWeight n (a + b) = flightWeight n a + flightWeight n b := by
  rw [flightWeight, Multiset.map_add, Multiset.sum_add]
  rfl

omit [DecidableEq ι] [Fintype ι] in
theorem flightWeight_cons (n : Nat) (x : ι × MessageProto) (rest : Multiset (ι × MessageProto)) :
    flightWeight n (x ::ₘ rest) = x.2.weight n + flightWeight n rest := by
  rw [flightWeight, Multiset.map_cons, Multiset.sum_cons]
  rfl

omit [DecidableEq ι] [Fintype ι] in
/-- Every message in flight may move at least once. -/
theorem card_le_flightWeight (n : Nat) (flight : Multiset (ι × MessageProto)) :
    flight.card ≤ flightWeight n flight := by
  induction flight using Multiset.induction_on with
  | empty => exact Nat.zero_le _
  | cons x rest ih =>
    have one := x.2.weight_pos n
    rw [flightWeight_cons, Multiset.card_cons]
    omega

/-- The price of what one node does is what the potential of the network grows by. -/
theorem potential_after {net : Network ι} (flight : Multiset (ι × MessageProto)) {i : ι} {l : List Event}
    (out : Except Fault Unit) {s : Node} {c : Int} (log : s.log = (net.nodes i).log ++ l)
    (cost : Node.price p.ids s ≤ Node.price p.ids (net.nodes i) + c) :
    (potential p ⟨net.after i out s, given i ((net.nodes i).since s) + flight⟩ : Int) ≤
      potential p ⟨net, flight⟩ + c := by
  have nodes := sum_update (fun s : Node => Node.outstanding p.ids s.mapSearch) net.nodes i s
  simp only [Node.price, log, Node.sentWeight_append, p.card_ids] at cost
  simp only [potential, Node.since_of_log log, flightWeight_add, flightWeight_given]
  simp only [Network.after]
  omega

/-- **One move.** A message that arrives is heavier than all that comes of it. -/
theorem Moves.potential_lt {tr tr' : Traffic ι} (moves : Moves p tr tr') (sent : tr.AllSent)
    (reach : Network.Reachable p tr.net) : potential p tr' < potential p tr := by
  rcases moves with @⟨net, rest, i, j, m, body, out, s, up, packet, run⟩ | @⟨net, rest, x⟩
  · obtain ⟨uep, seen⟩ := sent _ (Multiset.mem_cons_self _ _)
    obtain ⟨sender, offered⟩ := (reach.truthful j).sent _ seen
    have some : 1 ≤ p.ids.card := Finset.card_pos.mpr ⟨_, p.id_mem i⟩
    have tells : Node.Tells p.Genuine m (p.listen j) := ⟨⟨j, sender, rfl⟩, offered⟩
    obtain ⟨l, log⟩ := log_grows (w := p.world i) (.receive (p.listen j) body) (net.nodes i)
    have paid := Node.costs_handleReceive (w := p.world i) (fun _ _ => p.mem_ids) some
      (congrArg Prod.snd packet) tells (net.nodes i) (reach.truthful i)
    rw [Node.Input.run, run] at log
    rw [run, p.card_ids] at paid
    have grows := potential_after rest out log paid
    simp only [potential, flightWeight_cons] at grows ⊢
    omega
  · have one := x.2.weight_pos (Fintype.card ι)
    simp only [potential, flightWeight_cons]
    omega

/-- What is called for bounds what has moved and may still move. -/
theorem Run.potential_le {contacts : ι → Contacts} {calls : List (ι × Node.Input)} {n lost : Nat}
    {tr : Traffic ι} (run : Run p contacts calls n lost tr) :
    n + lost + potential p tr ≤ ∑ i, 2 * (contacts i).length +
      (calls.map fun call => call.2.budget (Fintype.card ι)).sum := by
  induction run with
  | @start net maxRecords storage out run stopped =>
    have each (i : ι) : Node.outstanding p.ids (net.nodes i).mapSearch +
        flightWeight (Fintype.card ι) (given i (net.nodes i).log) ≤ 2 * (contacts i).length := by
      let fresh := Node.initial (p.key i) (maxRecords i) (storage i) (contacts i)
      have paid : Node.price p.ids (Act.exec (Node.restoreFromBackup (p.world i)) fresh).2 ≤
          Node.price p.ids fresh + 2 * (contacts i).length := Node.costs_restoreFromBackup fresh
      have nothing : Node.price p.ids fresh = 0 := by
        simp [fresh, Node.price, Node.initial, Node.outstanding, Node.leftUnder, Node.sentWeight]
      rw [run i, nothing] at paid
      simp only [Node.price, p.card_ids] at paid
      rw [flightWeight_given]
      omega
    have whole : flightWeight (Fintype.card ι) (∑ i, given i (net.nodes i).log) =
        ∑ i, flightWeight (Fintype.card ι) (given i (net.nodes i).log) :=
      map_sum (⟨⟨flightWeight (Fintype.card ι), rfl⟩, flightWeight_add _⟩ :
        Multiset (ι × MessageProto) →+ Nat) _ _
    have total := Finset.sum_le_sum fun i (_ : i ∈ Finset.univ) => each i
    rw [Finset.sum_add_distrib] at total
    simp only [potential, whole, List.map_nil, List.sum_nil]
    omega
  | arrive run arrives ih =>
    have less := Moves.potential_lt (.inl arrives) run.reachable.2 run.reachable.1
    omega
  | lose run loses ih =>
    have less := Moves.potential_lt (p := p) (.inr loses) run.reachable.2 run.reachable.1
    omega
  | @act calls n lost net flight i input out s run up inner acts ih =>
    obtain ⟨l, log⟩ := log_grows (w := p.world i) input (net.nodes i)
    have paid := Node.costs_run (w := p.world i) (fun _ _ => p.mem_ids) inner (net.nodes i)
      (run.reachable.1.truthful i)
    simp only [acts] at log paid
    have grows := potential_after flight out log paid
    rw [p.card_ids] at grows
    simp only [List.map_append, List.map_cons, List.map_nil, List.sum_append, List.sum_cons,
      List.sum_nil]
    omega

/-- **The traffic of a network.** In every run, what the nodes were called for and the backups
they started from bound the messages that have arrived, those that have been lost and those in
flight. With no more calls the messages come to an end, in whatever order they arrive or get
lost. -/
theorem traffic_bounded {contacts : ι → Contacts} {calls : List (ι × Node.Input)} {n lost : Nat}
    {tr : Traffic ι} (run : Run p contacts calls n lost tr) :
    n + lost + tr.flight.card ≤ ∑ i, 2 * (contacts i).length +
        (calls.map fun call => call.2.budget (Fintype.card ι)).sum ∧
      Ends (Moves p) tr := by
  refine ⟨?_, ?_⟩
  · have bound := run.potential_le
    have heavy := card_le_flightWeight (Fintype.card ι) tr.flight
    rw [potential] at bound
    omega
  · refine ends_of_measure (I := fun tr => Network.Reachable p tr.net ∧ tr.AllSent) (potential p)
      (fun tr tr' h moves => ⟨⟨moves.reachable h.2 h.1, moves.allSent h.2⟩, ?_⟩) run.reachable
    exact moves.potential_lt h.2 h.1

end Potential

/-- The theorem at two nodes one of which is called to ping the other, gets the answer, and so has
met it. -/
theorem traffic_bounded_pong : ∃ (p : Peers Bool) (tr : Traffic Bool),
    Run p (fun _ => []) [(false, .pingEndpoint (p.listen true).proto 0)] 2 0 tr ∧
      2 + 0 + tr.flight.card ≤ 2 ∧ Ends (Moves p) tr := by
  let hello : MessageProto := (Peers.pair []).hello false 0
  let welcome : MessageProto := (Peers.pair []).welcome true false 0
  let p : Peers Bool := .pair [hello, welcome]
  let fresh (i : Bool) : Node :=
    { Node.initial (p.key i) 10 {} [] with dbBackup := { tables := [], calls := 1 } }
  have start : Run p (fun _ => []) [] 0 0 ⟨{ nodes := fresh, down := ∅ }, _⟩ :=
    .start (fun _ => 10) (fun _ => {}) (fun _ => .ok ())
      (fun _ => Node.exec_restoreFromBackup_empty Sqlite.inOrder_sound _ 10 {}) (by simp)
  let s : Node := (Node.pinged (p.world false) (fresh false) 0).logged
    (Node.handOver (p.world false) hello (p.listen true).proto)
  have pings : Act.exec ((Node.Input.pingEndpoint (p.listen true).proto 0).run (p.world false))
      (fresh false) = (.ok (), s) := by
    rw [Node.Input.run, Node.exec_sendPingTo (p.listen true).proto_named]
    rfl
  have called := start.act (i := false) (fun down => down) (by simp) pings
  have sent : given false ((fresh false).since s) + ∑ i, given i (fresh i).log =
      (false, hello) ::ₘ 0 := by
    have log : s.log = (fresh false).log ++
        Node.handOver (p.world false) hello (p.listen true).proto := rfl
    rw [Node.since_of_log log, Node.handOver, Peers.pair_finds]
    rfl
  rw [sent] at called
  -- the ping arrives, and is answered
  let s' : Node := Node.afterFirst (p.world true) (fresh true) (p.listen false) hello
  have received : Act.exec (Node.handleReceive (p.world true) (p.listen false) [0]) (fresh true) =
      (.ok (), s') :=
    Node.exec_receive_afterFirst rfl _ _ rfl rfl (by decide) (by decide)
  have pinged : Run p (fun _ => []) [(false, .pingEndpoint (p.listen true).proto 0)] 1 0
      ⟨_, given true ((fresh true).since s') + 0⟩ :=
    called.arrive (.handled (i := true) (by simp [Network.after, Survives])
      (by decide : (p.world true).parse [0] = (true, hello)) received)
  have since : (fresh true).since s' = _ :=
    Node.since_afterFirst (by decide) (Peers.pair_finds [hello, welcome] true false) (Nat.zero_le _)
  have answered : given true ((fresh true).since s') + 0 = (true, welcome) ::ₘ 0 := by
    rw [since]
    rfl
  rw [answered] at pinged
  have greeted := pinged.arrive (.handled (i := false) (by simp [Network.after, Survives])
    (by decide : (p.world false).parse [1] = (true, welcome)) rfl)
  have bounded := traffic_bounded greeted
  exact ⟨p, _, greeted, by simpa [Node.Input.budget] using bounded.1, bounded.2⟩

end Traffic

end MiniDht
