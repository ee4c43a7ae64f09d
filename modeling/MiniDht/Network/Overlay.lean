import MiniDht.Network
import MiniDht.Node.Pings
import MiniDht.Node.Posting

/-!
# Who meets whom

A transport that takes a message to the node that listens where it was sent. Only then do the
addresses matter: a node sends to the endpoints it was told to ping, and to its contacts. A
node heard of in a reply is pinged by its key, which leads nowhere unless it is a contact
already. So nobody ever meets but the nodes that were introduced to each other
(`overlay_introduced`).
-/

namespace MiniDht

open Lib

namespace Peers

variable {ι : Type} (p : Peers ι)

/-- For the text of an endpoint that a node listens on, no other endpoint is found. -/
def Resolves : Prop :=
  ∀ i j uep, (p.world i).resolve (p.listen j).proto = some uep → uep = p.listen j

/-- Node `i` was told of an endpoint: by its client, or by the backup it started from. -/
def Dials (contacts : ι → Contacts) (inputs : List (ι × Node.Input)) (i : ι) (epp : EndpointProto) :
    Prop :=
  (∃ t, (i, .pingEndpoint epp t) ∈ inputs) ∨
    ∃ row ∈ contacts i, stringToEndpointPair row.2 = .ok (epp.address, epp.port)

/-- One of two nodes was told where the other one listens. -/
def Introduced (contacts : ι → Contacts) (inputs : List (ι × Node.Input)) (i j : ι) : Prop :=
  (∃ epp, Dials contacts inputs i epp ∧ (p.world i).resolve epp = some (p.listen j)) ∨
    ∃ epp, Dials contacts inputs j epp ∧ (p.world j).resolve epp = some (p.listen i)

/-- The key and endpoint of a node that was introduced to `i`. -/
def Met (contacts : ι → Contacts) (inputs : List (ι × Node.Input)) (i : ι) (k : String)
    (ep : EndpointProto) : Prop :=
  ∃ j, p.IsNode k ep j ∧ p.Introduced contacts inputs i j

variable {p} {contacts : ι → Contacts} {inputs : List (ι × Node.Input)} {i j : ι}

theorem Introduced.symm (both : p.Introduced contacts inputs i j) : p.Introduced contacts inputs j i :=
  Or.symm both

theorem Dials.later {epp : EndpointProto} (told : Dials contacts inputs i epp)
    (call : ι × Node.Input) : Dials contacts (inputs ++ [call]) i epp :=
  told.imp (fun ⟨t, called⟩ => ⟨t, List.mem_append_left _ called⟩) fun saved => saved

theorem Introduced.later (both : p.Introduced contacts inputs i j) (call : ι × Node.Input) :
    p.Introduced contacts (inputs ++ [call]) i j :=
  both.imp (fun ⟨epp, told, at'⟩ => ⟨epp, told.later call, at'⟩)
    fun ⟨epp, told, at'⟩ => ⟨epp, told.later call, at'⟩

theorem Met.later {k : String} {ep : EndpointProto} (met : p.Met contacts inputs i k ep)
    (call : ι × Node.Input) : p.Met contacts (inputs ++ [call]) i k ep :=
  let ⟨j, node, both⟩ := met
  ⟨j, node, both.later call⟩

/-- A message that reaches a node was sent by one that was introduced to it, and was meant for
it unless it is a ping. -/
theorem introduced_of_addressed (resolves : p.Resolves) {m : MessageProto}
    (sent : Node.Addressed (p.world j) (Dials contacts inputs j) (p.Met contacts inputs j) (p.id j) m
      (p.listen i)) :
    p.Introduced contacts inputs j i ∧ (m.type = .sendPing ∨ m.toId = p.id i ∧ i ≠ j) := by
  rcases sent with ⟨ping, epp, told, at'⟩ | ⟨other, ep, ⟨i', ⟨key, rfl⟩, both⟩, at'⟩
  · exact ⟨.inl ⟨epp, told, at'⟩, .inl ping⟩
  · obtain rfl : i = i' := p.apart (resolves j i' _ at')
    exact ⟨both, .inr ⟨key, fun same => other (same ▸ key)⟩⟩

theorem pair_resolves (packets : List MessageProto) : (pair packets).Resolves := fun i j _ found =>
  Option.some.inj (found.symm.trans (pair_finds packets i j))

end Peers

namespace Network

variable {ι : Type} [DecidableEq ι] {p : Peers ι}

/-- The runs of a network whose nodes start with these limits and databases, with what its nodes took
in: a message arrives at the node that listens where it was sent, any number of times or never. -/
inductive Run (p : Peers ι) (maxRecords : ι → Nat) (storage : ι → Tables) (contacts : ι → Contacts) :
    List (ι × Node.Input) → Network ι → Prop where
  | start {net : Network ι} (out : ι → Except Fault Unit)
      (run : ∀ i, Act.exec (Node.restoreFromBackup (p.world i))
        (Node.initial (p.key i) (maxRecords i) (storage i) (contacts i)) = (out i, net.nodes i))
      (stopped : ∀ i, i ∈ net.down ↔ out i ≠ .ok ()) : Run p maxRecords storage contacts [] net
  | arrive {inputs : List (ι × Node.Input)} {net : Network ι} {i j : ι} {m : MessageProto}
      {body : List UInt8} {out : Except Fault Unit} {s : Node}
      (before : Run p maxRecords storage contacts inputs net) (up : i ∉ net.down)
      (sent : .delivered m (p.listen i) ∈ (net.nodes j).log)
      (packet : (p.world i).parse body = (true, m))
      (run : Act.exec (Node.handleReceive (p.world i) (p.listen j) body) (net.nodes i) = (out, s)) :
      Run p maxRecords storage contacts (inputs ++ [(i, .receive (p.listen j) body)]) (net.after i out s)
  | act {inputs : List (ι × Node.Input)} {net : Network ι} {i : ι} {input : Node.Input}
      {out : Except Fault Unit} {s : Node} (before : Run p maxRecords storage contacts inputs net)
      (up : i ∉ net.down) (inner : ∀ ep body, input ≠ .receive ep body)
      (run : Act.exec (input.run (p.world i)) (net.nodes i) = (out, s)) :
      Run p maxRecords storage contacts (inputs ++ [(i, input)]) (net.after i out s)

namespace Run

variable {maxRecords : ι → Nat} {storage : ι → Tables} {contacts : ι → Contacts}
  {inputs : List (ι × Node.Input)}
  {net : Network ι}

/-- Such a run is one over a transport that takes messages anywhere. -/
theorem reachable (run : Run p maxRecords storage contacts inputs net) : Reachable p net := by
  induction run with
  | start out run stopped => exact .start maxRecords storage contacts out run stopped
  | arrive before up sent packet run ih => exact ih.arrive up ⟨_, sent⟩ packet run
  | act before up inner run ih => exact ih.act up inner run

/-- How the nodes start. -/
theorem start_run (start : Run p maxRecords storage contacts [] net) :
    ∃ out : ι → Except Fault Unit, (∀ i, Act.exec (Node.restoreFromBackup (p.world i))
      (Node.initial (p.key i) (maxRecords i) (storage i) (contacts i)) = (out i, net.nodes i)) ∧
    ∀ i, i ∈ net.down ↔ out i ≠ .ok () := by
  generalize none : ([] : List (ι × Node.Input)) = inputs at start
  cases start with
  | start out run stopped => exact ⟨out, run, stopped⟩
  | arrive => simp at none
  | act => simp at none

/-- The last step of a run. -/
theorem last_step {call : ι × Node.Input}
    (run : Run p maxRecords storage contacts (inputs ++ [call]) net) :
    ∃ net₀ out s, Run p maxRecords storage contacts inputs net₀ ∧
      Act.exec (call.2.run (p.world call.1)) (net₀.nodes call.1) = (out, s) ∧
      net = net₀.after call.1 out s := by
  generalize all : inputs ++ [call] = inputs' at run
  cases run with
  | start out run stopped => simp at all
  | arrive before up sent packet run =>
    obtain ⟨rfl, same⟩ := List.append_inj' all rfl
    obtain rfl := List.singleton_inj.mp same
    exact ⟨_, _, _, before, run, rfl⟩
  | act before up inner run =>
    obtain ⟨rfl, same⟩ := List.append_inj' all rfl
    obtain rfl := List.singleton_inj.mp same
    exact ⟨_, _, _, before, run, rfl⟩

/-- What its nodes took in decides what has become of a network. So the run of more inputs goes on
from where the run of the first of them has come to. -/
theorem unique {net' : Network ι} (run : Run p maxRecords storage contacts inputs net)
    (run' : Run p maxRecords storage contacts inputs net') : net = net' := by
  induction inputs using List.reverseRecOn generalizing net net' with
  | nil =>
    obtain ⟨out₁, start₁, stopped₁⟩ := run.start_run
    obtain ⟨out₂, start₂, stopped₂⟩ := run'.start_run
    have same (i : ι) := Prod.mk.inj ((start₁ i).symm.trans (start₂ i))
    obtain ⟨nodes, down⟩ := net
    obtain ⟨nodes', down'⟩ := net'
    obtain rfl : nodes = nodes' := funext fun i => (same i).2
    obtain rfl : down = down' := Set.ext fun i => by rw [stopped₁ i, stopped₂ i, (same i).1]
    rfl
  | append_singleton inputs call ih =>
    obtain ⟨net₁, out₁, s₁, before₁, step₁, rfl⟩ := run.last_step
    obtain ⟨net₂, out₂, s₂, before₂, step₂, rfl⟩ := run'.last_step
    obtain rfl := ih before₁ before₂
    obtain ⟨rfl, rfl⟩ := Prod.mk.inj (step₁.symm.trans step₂)
    rfl

/-- What holds of every node, and of the node that runs something, holds of every node. -/
theorem forall_after {P : ι → Node → Prop} {i : ι} {out : Except Fault Unit} {s : Node}
    (old : ∀ j, P j (net.nodes j)) (here : P i s) (j : ι) : P j ((net.after i out s).nodes j) := by
  rw [nodes_after]
  split
  · rename_i same
    exact same ▸ here
  · exact old j

/-- A rule about the nodes that knows where messages go, and who was introduced to whom, holds of
every node in every run. -/
theorem keeps {I : List (ι × Node.Input) → ι → Node → Prop} {fit : ι → MessageProto → Prop}
    (resolves : p.Resolves)
    (rule : ∀ inputs i, Node.Posts (p.world i) (I inputs i) (fit i) (Peers.Dials contacts inputs i)
      (p.Met contacts inputs i))
    (posted : ∀ inputs i s, I inputs i s → Node.Posted (p.world i) (fun _ => True)
      (Peers.Dials contacts inputs i) (p.Met contacts inputs i) (p.id i) s)
    (finds : ∀ inputs i m, Act.Keeps (I inputs i) (Node.handleSendFindValue (p.world i) m))
    (later : ∀ inputs call i s, I inputs i s → I (inputs ++ [call]) i s)
    (initial : ∀ i maxRecords, I [] i (Node.initial (p.key i) maxRecords (storage i) (contacts i)))
    (run : Run p maxRecords storage contacts inputs net) (i : ι) : I inputs i (net.nodes i) := by
  induction run generalizing i with
  | @start net out run stopped =>
    have kept := (rule [] i).restoreFromBackup
      (fun row listed address port cut => .inr ⟨row, listed, cut⟩) _ rfl (initial i (maxRecords i))
    rwa [run i] at kept
  | @arrive inputs net i' j m body out s before up sent packet run ih =>
    have before (i : ι) := later _ (i', .receive (p.listen j) body) i _ (ih i)
    refine forall_after before ?_ i
    obtain ⟨sender, addressed⟩ := (posted _ _ _ (before j)).sent _ _ sent
    have both := (Peers.introduced_of_addressed resolves addressed).1.symm
    have kept := (rule _ i').run (.receive (p.listen j) body) ⟨?_, fun _ s' h _ => ?_⟩ (before i')
    · rwa [Node.Input.run, run] at kept
    · rw [packet]
      exact ⟨j, ⟨sender, rfl⟩, both⟩
    · exact finds _ i' _ s' h
  | @act inputs net i' input out s before up inner run ih =>
    have before (i : ι) := later _ (i', input) i _ (ih i)
    refine forall_after before ?_ i
    have kept := (rule _ i').run input ?_ (before i')
    · rwa [run] at kept
    · cases input with
      | receive ep body => exact absurd rfl (inner ep body)
      | pingEndpoint epp t => exact .inl ⟨t, List.mem_append_right _ (List.mem_singleton_self _)⟩
      | _ => trivial

omit [DecidableEq ι] in
/-- The rule that messages go to those a node was told of, and its contacts are among them. -/
theorem posts (contacts : ι → Contacts) (inputs : List (ι × Node.Input)) (i : ι) :
    Node.Posts (p.world i) (Node.Posted (p.world i) (fun _ => True) (Peers.Dials contacts inputs i)
      (p.Met contacts inputs i) (p.id i)) (fun m => m.fromId = p.id i ∧ True)
      (Peers.Dials contacts inputs i) (p.Met contacts inputs i) :=
  Node.Posted.posts fun _ _ => trivial

theorem posted (resolves : p.Resolves) (run : Run p maxRecords storage contacts inputs net) (i : ι) :
    Node.Posted (p.world i) (fun _ => True) (Peers.Dials contacts inputs i) (p.Met contacts inputs i)
      (p.id i) (net.nodes i) :=
  run.keeps resolves (posts contacts) (fun _ _ _ h => h)
    (fun inputs i _ => (posts contacts inputs i).handleSendFindValue fun _ _ h => ⟨h.id, trivial⟩)
    (fun _ call _ _ h => h.mono (fun _ told => told.later call) fun _ _ met => met.later call)
    (fun i maxRecords => .initial (p.key i) maxRecords (storage i) (contacts i)) i

/-- A node is told of an endpoint, and pings it. -/
theorem pings (run : Run p maxRecords storage contacts inputs net) {i : ι} {t : Token}
    {epp : EndpointProto} {uep : Endpoint} (up : i ∉ net.down) (named : epp.Named)
    (finds : (p.world i).resolve epp = some uep)
    (fits : (p.world i).byteSize (p.hello i t) ≤ maxBodyLength) :
    ∃ net', Run p maxRecords storage contacts (inputs ++ [(i, .pingEndpoint epp t)]) net' ∧
      net'.down = net.down ∧ (∀ i' ≠ i, net'.nodes i' = net.nodes i') ∧
      (net'.nodes i).contactList = (net.nodes i).contactList ∧
      .delivered (p.hello i t) uep ∈ (net'.nodes i).log ∧
      (net'.nodes i).mapPingTtl t = some ((p.world i).clock (net.nodes i).ticks) ∧
      (net'.nodes i).ticks = (net.nodes i).ticks + 1 := by
  have own : (net.nodes i).id = p.id i := (run.reachable.truthful i).id
  have sent : Act.exec ((Node.Input.pingEndpoint epp t).run (p.world i)) (net.nodes i) =
      (.ok (), ((net.nodes i).pinged (p.world i) t).logged
        (Node.handOver (p.world i) (p.hello i t) epp)) := by
    rw [Node.Input.run, Node.exec_sendPingTo named, own]
    rfl
  refine ⟨_, run.act up (by simp) sent, ?_, ?_, ?_⟩
  · ext j'
    simp [after, Survives]
  · intro i' other
    rw [nodes_after, if_neg other]
  · rw [nodes_after, if_pos rfl]
    refine ⟨rfl, List.mem_append_right _ ?_, ?_, rfl⟩
    · simp only [Node.handOver, finds, if_neg (not_lt.mpr fits)]
      exact List.mem_cons_of_mem _ (List.mem_singleton_self _)
    · simp [Node.pinged]

/-- Two nodes start with nothing. -/
theorem pair_start (packets : List MessageProto) :
    ∃ net, Run (.pair packets) (fun _ => 10) (fun _ => {}) (fun _ => []) [] net ∧ net.down = ∅ := by
  let fresh (i : Bool) : Node :=
    { Node.initial ((Peers.pair packets).key i) 10 {} [] with dbBackup := { tables := [], calls := 1 } }
  exact ⟨{ nodes := fresh, down := ∅ }, .start (fun _ => .ok ())
    (fun i => Node.exec_restoreFromBackup_empty Sqlite.inOrder_sound _ 10 {}) (by simp), rfl⟩

/-- **Introductions.** In every run, a node has no contacts, and sends nothing to nodes, but those
it was introduced to: one of the two was told to ping the other, or had it in its backup. And all
messages but pings reach the node they are meant for, which is never the sender. -/
theorem overlay_introduced (resolves : p.Resolves)
    (run : Run p maxRecords storage contacts inputs net) (i : ι) :
    (∀ e ∈ (net.nodes i).contactList.entries,
      ∃ j, p.IsNode e.2.key e.2.ep j ∧ p.Introduced contacts inputs i j) ∧
    ∀ m j, .delivered m (p.listen j) ∈ (net.nodes i).log →
      p.Introduced contacts inputs i j ∧ (m.type = .sendPing ∨ m.toId = p.id j ∧ j ≠ i) :=
  ⟨(run.posted resolves i).contacts, fun m _ there =>
    Peers.introduced_of_addressed resolves ((run.posted resolves i).sent m _ there).2⟩

/-- The theorem where one of two nodes has pinged the other. -/
theorem overlay_introduced_ping : ∃ (p : Peers Bool) (inputs : List (Bool × Node.Input))
    (net : Network Bool), Run p (fun _ => 10) (fun _ => {}) (fun _ => []) inputs net ∧
      .delivered (p.hello false 0) (p.listen true) ∈ (net.nodes false).log ∧
      p.Introduced (fun _ => []) inputs false true := by
  obtain ⟨net, start, down⟩ := pair_start []
  obtain ⟨net', run, -, -, -, sent, -⟩ := start.pings (i := false) (t := 0) (by simp [down])
    ((Peers.pair []).listen true).proto_named (Peers.pair_finds [] false true) (Nat.zero_le _)
  have introduced := (overlay_introduced (Peers.pair_resolves []) run false).2 _ true sent
  exact ⟨_, _, net', run, sent, introduced.1⟩

end Run

end Network

end MiniDht
