import MiniDht.Network.Overlay
import MiniDht.Node.Shelf

/-!
# How two nodes meet

A node that is told where another one listens pings it. The other takes the sender of the ping
for a contact, and answers; the answer makes it a contact in turn, however full the contact
lists are (`meets`).
-/

namespace MiniDht

open Lib

namespace Peers

variable {ι : Type} (p : Peers ι)

/-- What it takes for the ping of a node to another, and for the answer, to get through: each finds
the endpoint of the other, both messages fit into a packet and are read as they were written, and
the clock of the node that pings does not run backwards. -/
structure CanTalk (i j : ι) (t : Token) : Prop where
  apart : i ≠ j
  dials : (p.world i).resolve (p.listen j).proto = some (p.listen j)
  answers : (p.world j).resolve (p.listen i).proto = some (p.listen i)
  fits : (p.world i).byteSize (p.hello i t) ≤ maxBodyLength
  fits' : (p.world j).byteSize (p.welcome j i t) ≤ maxBodyLength
  reads : ∃ body, (p.world j).parse body = (true, p.hello i t)
  reads' : ∃ body, (p.world i).parse body = (true, p.welcome j i t)
  clock : ∀ m n, m ≤ n → (p.world i).clock m ≤ (p.world i).clock n
  nonzero : p.id i ≠ zeroId

variable {p} {i j : ι} {t : Token} {body : List UInt8}

theorem hello_clean (asks : (p.world j).parse body = (true, p.hello i t)) (ep : Endpoint) :
    Node.Input.Clean (p.world j) (.receive ep body) := by
  simp [Node.Input.Clean, asks, hello]

theorem welcome_clean (answers : (p.world i).parse body = (true, p.welcome j i t)) (ep : Endpoint) :
    Node.Input.Clean (p.world i) (.receive ep body) := by
  simp [Node.Input.Clean, answers, welcome]

variable (p) in
/-- Node `i` has node `j` for a contact, where it listens. -/
def Knows (net : Network ι) (i j : ι) : Prop :=
  ∃ c, (net.nodes i).contactList.lookup (p.id j) = some c ∧ c.ep = (p.listen j).proto

end Peers

namespace Network.Run

variable {ι : Type} [DecidableEq ι] {p : Peers ι} {maxRecords : ι → Nat} {storage : ι → Tables}
  {contacts : ι → Contacts}
  {inputs : List (ι × Node.Input)} {net : Network ι} {i j : ι} {t : Token}

/-- A node that is not down has survived all it was called for. -/
theorem survivor (run : Run p maxRecords storage contacts inputs net) (up : i ∉ net.down) :
    Node.Reachable (p.world i) (net.nodes i) := by
  induction run with
  | @start net out run stopped =>
    have fine : out i = .ok () := not_not.mp fun failed => up ((stopped i).mpr failed)
    have started := run i
    rw [fine] at started
    exact .start started
  | @arrive inputs net i' j m body out s before up' sent packet run ih =>
    rw [nodes_after]
    split
    · rename_i same
      subst same
      refine (ih up').receive run ?_
      exact not_not.mp fun failed => up (.inr ⟨rfl, failed⟩)
    · exact ih fun down => up (.inl down)
  | @act inputs net i' input out s before up' inner run ih =>
    rw [nodes_after]
    split
    · rename_i same
      subst same
      refine .step (ih up') run ?_
      exact not_not.mp fun failed => up (.inr ⟨rfl, failed⟩)
    · exact ih fun down => up (.inl down)

/-- A node that has just been added to a contact list is in it, where it listens. -/
theorem lookup_added (run : Run p maxRecords storage contacts inputs net) (apart : i ≠ j)
    {order : EvalOrder} {pastEnd : UInt64} {now : Ptime} {b : Bucket}
    (added : (net.nodes j).contactList.addContact order pastEnd now (p.id i) (p.listen i).proto = .ok b) :
    ∃ c, b.lookup (p.id i) = some c ∧ c.ep = (p.listen i).proto := by
  have table := (run.reachable.truthful j).table
  have other : p.id i ≠ (net.nodes j).contactList.localKey := by
    rw [table.localKey_eq]
    exact fun same => apart (p.distinct same)
  exact ⟨_, table.filed.lookup_added other added, rfl⟩

/-- The ping arrives: the sender becomes a contact, and is answered. -/
theorem answers (run : Run p maxRecords storage contacts inputs net) (talk : p.CanTalk i j t)
    (up : j ∉ net.down) (sent : .delivered (p.hello i t) (p.listen j) ∈ (net.nodes i).log) :
    ∃ body net', Run p maxRecords storage contacts (inputs ++ [(j, .receive (p.listen i) body)]) net' ∧
      (p.world j).parse body = (true, p.hello i t) ∧
      net'.down = net.down ∧ (∀ i' ≠ j, net'.nodes i' = net.nodes i') ∧ p.Knows net' j i ∧
      (net'.nodes j).shelf = (net.nodes j).shelf ∧
      .delivered (p.welcome j i t) (p.listen i) ∈ (net'.nodes j).log := by
  obtain ⟨body, packet⟩ := talk.reads
  have own : (net.nodes j).id = p.id j := (run.reachable.truthful j).id
  have message : ((p.world j).parse body).2 = p.hello i t := congrArg Prod.snd packet
  obtain ⟨b, added, sane, received⟩ := Node.exec_receive_request (run.survivor up).sane (p.listen i)
    message (by simp [Peers.hello])
  obtain ⟨c, found, at'⟩ := run.lookup_added talk.apart added
  have handled := Node.exec_replyPing (w := p.world j) (t := t) talk.nonzero sane.named
  have arrived : Act.exec (Node.handleReceive (p.world j) (p.listen i) body) (net.nodes j) = (.ok (), _) :=
    received.trans (Act.exec_rethrowAs_ok.mpr handled)
  refine ⟨body, _, run.arrive up sent packet arrived, packet, ?_, ?_, ?_, ?_, ?_⟩
  · ext j'
    simp [after, Survives]
  · intro i' other
    rw [nodes_after, if_neg other]
  · rw [Peers.Knows, nodes_after, if_pos rfl]
    exact ⟨c, found, at'⟩
  · rw [nodes_after, if_pos rfl]
    rfl
  · rw [nodes_after, if_pos rfl]
    refine List.mem_append_right _ (Node.delivered_mem_sendEvents.mpr ⟨?_, ?_, c, found, ?_, ?_⟩)
    · rw [own]
      rfl
    · rw [own]
      exact fun same => talk.apart (p.distinct same)
    · rw [at']
      exact talk.answers
    · rw [own]
      exact talk.fits'

/-- The answer arrives, to a ping that is waited for: who sends it becomes a contact. -/
theorem greeted (run : Run p maxRecords storage contacts inputs net) (talk : p.CanTalk i j t)
    (up : i ∉ net.down) (sent : .delivered (p.welcome j i t) (p.listen i) ∈ (net.nodes j).log)
    {ticks : Nat}
    (noted : (net.nodes i).mapPingTtl t = some ((p.world i).clock ticks))
    (later : ticks ≤ (net.nodes i).ticks) :
    ∃ body net', Run p maxRecords storage contacts (inputs ++ [(i, .receive (p.listen j) body)]) net' ∧
      (p.world i).parse body = (true, p.welcome j i t) ∧
      net'.down = net.down ∧ (∀ j' ≠ i, net'.nodes j' = net.nodes j') ∧ p.Knows net' i j ∧
      ((net.nodes i).contactList.entries.length < bucketSize →
        ∀ j', p.Knows net i j' → p.Knows net' i j') := by
  obtain ⟨body, packet⟩ := talk.reads'
  have message : ((p.world i).parse body).2 = p.welcome j i t := congrArg Prod.snd packet
  have sane := (run.survivor up).sane
  have type : ((p.world i).parse body).2.type = .replyPing := by
    rw [message]
    rfl
  obtain ⟨s, arrived⟩ : ∃ s, Act.exec (Node.handleReceive (p.world i) (p.listen j) body) (net.nodes i) =
      (.ok (), s) := Node.pong_returns sane type
  refine ⟨body, _, run.arrive up sent packet arrived, packet, ?_, ?_, ?_⟩
  · ext j'
    simp [after, Survives]
  · intro j' other
    rw [nodes_after, if_neg other]
  · simp only [Peers.Knows, nodes_after, if_pos]
    rcases Node.pong_cases sane type arrived with ⟨forgotten, -⟩ | ⟨since, b, waited, added, rfl⟩
    · rw [message] at forgotten
      rw [Peers.welcome, noted] at forgotten
      cases forgotten
    · rw [message] at waited added
      obtain rfl : (p.world i).clock ticks = since := Option.some.inj (noted.symm.trans waited)
      have soon : (p.world i).clock ticks - (p.world i).clock (net.nodes i).ticks < minutes 1 := by
        have positive : (0 : Int) < minutes 1 := by decide
        exact lt_of_le_of_lt (Int.sub_nonpos_of_le (talk.clock _ _ later)) positive
      rw [if_pos soon]
      have known := run.lookup_added talk.apart.symm added
      refine ⟨known, ?_⟩
      rintro few j' ⟨c, found, at'⟩
      by_cases same : p.id j' = p.id j
      · rwa [p.distinct same]
      · have table := (run.reachable.truthful i).table
        exact ⟨c, table.filed.lookup_kept few found same added, at'⟩

/-- A ping and its answer, which change the records of nobody. -/
theorem exchange (run : Run p maxRecords storage contacts inputs net) (talk : p.CanTalk i j t)
    (up : i ∉ net.down) (up' : j ∉ net.down) :
    ∃ ping pong net', (p.world j).parse ping = (true, p.hello i t) ∧
      (p.world i).parse pong = (true, p.welcome j i t) ∧
      Run p maxRecords storage contacts (inputs ++ [(i, .pingEndpoint (p.listen j).proto t)] ++
        [(j, .receive (p.listen i) ping)] ++ [(i, .receive (p.listen j) pong)]) net' ∧
      net'.down = net.down ∧ p.Knows net' i j ∧ p.Knows net' j i ∧
      (∀ j' ≠ i, (net'.nodes j').shelf = (net.nodes j').shelf) ∧
      ((net.nodes i).contactList.entries.length < bucketSize →
        ∀ j', p.Knows net i j' → p.Knows net' i j') := by
  obtain ⟨net₁, run₁, down₁, same₁, list₁, sent, noted, ticks⟩ := run.pings up (p.listen j).proto_named
    talk.dials talk.fits
  obtain ⟨ping, net₂, run₂, asks, down₂, same₂, known, shelf, answered⟩ :=
    run₁.answers talk (by rwa [down₁]) sent
  have kept : net₂.nodes i = net₁.nodes i := same₂ i talk.apart
  obtain ⟨pong, net₃, run₃, answers, down₃, same₃, known', keeps⟩ := run₂.greeted talk
    (by rwa [down₂, down₁]) answered (by rw [kept, noted]) (by rw [kept, ticks]; exact Nat.le_succ _)
  have list : (net₂.nodes i).contactList = (net.nodes i).contactList := by rw [kept, list₁]
  refine ⟨ping, pong, net₃, asks, answers, run₃, down₃.trans (down₂.trans down₁), known', ?_,
    fun j' other => ?_, ?_⟩
  · rwa [Peers.Knows, same₃ j talk.apart.symm]
  · rw [same₃ j' other]
    by_cases same : j' = j
    · rw [same, shelf, same₁ j talk.apart.symm]
    · rw [same₂ j' same, same₁ j' other]
  · rintro few j' ⟨c, found, at'⟩
    exact keeps (list ▸ few) j' ⟨c, list ▸ found, at'⟩

/-- **Meeting.** Whatever state a network is in, two of its nodes that are not down, and that get
through to each other, meet when one is told where the other listens: the ping it sends arrives,
and the answer to it, and each is a contact of the other. -/
theorem meets (run : Run p maxRecords storage contacts inputs net) (talk : p.CanTalk i j t)
    (up : i ∉ net.down) (up' : j ∉ net.down) :
    ∃ ping pong net', (p.world j).parse ping = (true, p.hello i t) ∧
      (p.world i).parse pong = (true, p.welcome j i t) ∧
      Run p maxRecords storage contacts (inputs ++ [(i, .pingEndpoint (p.listen j).proto t)] ++
        [(j, .receive (p.listen i) ping)] ++ [(i, .receive (p.listen j) pong)]) net' ∧
      net'.down = net.down ∧ p.Knows net' i j ∧ p.Knows net' j i := by
  obtain ⟨ping, pong, net', asks, answers, run', down, known, known', -⟩ := run.exchange talk up up'
  exact ⟨ping, pong, net', asks, answers, run', down, known, known'⟩

/-- The theorem for two nodes that have just started. -/
theorem meets_pair : ∃ (p : Peers Bool) (inputs : List (Bool × Node.Input)) (net : Network Bool),
    Run p (fun _ => 10) (fun _ => {}) (fun _ => []) inputs net ∧ p.Knows net false true ∧
      p.Knows net true false := by
  let packets := [(Peers.pair []).hello false 0, (Peers.pair []).welcome true false 0]
  have talk : (Peers.pair packets).CanTalk false true 0 :=
    { apart := Bool.false_ne_true
      dials := Peers.pair_finds packets false true
      answers := Peers.pair_finds packets true false
      fits := Nat.zero_le _
      fits' := Nat.zero_le _
      reads := ⟨[0], rfl⟩
      reads' := ⟨[1], rfl⟩
      clock := fun _ _ _ => le_rfl
      nonzero := by decide }
  obtain ⟨net, start, down⟩ := pair_start packets
  obtain ⟨_, _, net', -, -, run, -, known, known'⟩ := meets start talk (by simp [down]) (by simp [down])
  exact ⟨_, _, net', run, known, known'⟩

end Network.Run

end MiniDht
