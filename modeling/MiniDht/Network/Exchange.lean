import MiniDht.Network.Greeting
import MiniDht.Node.Backups
import MiniDht.Node.FindNode
import MiniDht.Node.Replies

/-!
# What is said in the course of a store

A node asks another for its contacts, gets them in packets, and in the end sends the item. Each
of these messages changes the node it arrives at, and no other: who is asked has an answer on
the way (`asked`), who is answered runs a round (`told`), and who gets the item has it then
(`filed`).
-/

namespace MiniDht

open Lib

/-- The item is among the records that `insert_db` leaves. If its key and title are new, so are
its data and its time to live. -/
theorem RecordStore.Filed.there {rs rs' : RecordStore} {max : Nat} {renews : Prop} {k : String}
    {d : DataItemProto} (filed : rs.Filed max renews k d rs') :
    ∃ r ∈ rs'.records, r.pair = (k, d.title) ∧
      (rs.Absent k d.title → r.data = d.data ∧ r.ttl = toSigned d.ttl) := by
  have old (there : ¬ rs.Absent k d.title) : ∃ r ∈ rs.records, r.pair = (k, d.title) := by
    simpa [RecordStore.Absent] using there
  cases filed with
  | first =>
    exact ⟨_, List.mem_append_right _ (List.mem_singleton_self _), rfl, fun _ => by simp⟩
  | beside =>
    exact ⟨_, List.mem_append_right _ (List.mem_singleton_self _), rfl, fun _ => by simp⟩
  | kept there =>
    obtain ⟨r, member, pair⟩ := old there
    exact ⟨r, member, pair, fun absent => absurd absent there⟩
  | renewed there =>
    obtain ⟨r, member, pair⟩ := old there
    exact ⟨_, List.mem_map_of_mem member, by rw [RecordStore.pair_retime, pair],
      fun absent => absurd absent there⟩

namespace Peers

variable {ι : Type} (p : Peers ι) (i : ι) (k : String) (b : DataItemProto)

/-- What is said when node `i` stores an item under a key. -/
inductive Said : MessageProto → Prop where
  | ask (j : ι) (t : Token) : Said (Node.findNodeMessage (p.id i) (p.id j) k t)
  | answer (j : ι) (t : Token) {part : List ContactProto} (few : part.length ≤ alpha)
      (genuine : ∀ c ∈ part, p.Genuine c.key c.ep) : Said (Node.nodeReply (p.id j) (p.id i) t part)
  | item (j : ι) (t : Token) {about : String} (one : about = k ∨ about = p.id i) :
      Said (Node.storeMessage (p.id i) (p.id j) about b t)

/-- Every node finds every other, and what is said in the course of the store arrives as it was
said. The zero id is that of no node. -/
structure Transmits : Prop where
  finds : ∀ j j', (p.world j).resolve (p.listen j').proto = some (p.listen j')
  fits : ∀ j m, p.Said i k b m → (p.world j).byteSize m ≤ maxBodyLength
  reads : ∀ j m, p.Said i k b m → ∃ body, (p.world j).parse body = (true, m)
  nonzero : ∀ j, p.id j ≠ zeroId

variable {p i k b}

/-- What is said has clean strings if the item has, which only the item's message carries. -/
theorem Said.clean {m : MessageProto} (said : p.Said i k b m)
    (title : m.type = .sendStore → Clean b.title) {j : ι} {body : List UInt8}
    (packet : (p.world j).parse body = (true, m)) (ep : Endpoint) :
    (Node.Input.receive ep body).Clean (p.world j) := by
  rw [Node.Input.Clean, packet]
  cases said with
  | ask => simp [Node.findNodeMessage]
  | answer => simp [Node.nodeReply]
  | item j' =>
    refine ⟨fun store => ⟨clean_keyToString _, title store⟩, ?_⟩
    simp [Node.storeMessage]

theorem Transmits.resolves (wires : p.Transmits i k b) : p.Resolves := fun j j' _ found =>
  Option.some.inj (found.symm.trans (wires.finds j j'))

theorem Transmits.handOver (wires : p.Transmits i k b) {m : MessageProto} (said : p.Said i k b m)
    (j j' : ι) : .delivered m (p.listen j') ∈ Node.handOver (p.world j) m (p.listen j').proto := by
  rw [Node.handOver, wires.finds]
  simp only [if_neg (not_lt.mpr (wires.fits j m said))]
  exact List.mem_cons_of_mem _ (List.mem_singleton_self _)

theorem Transmits.keys_nonzero (wires : p.Transmits i k b) {lc : List ContactProto}
    (genuine : ∀ c ∈ lc, p.Genuine c.key c.ep) : zeroId ∉ Search.keys lc := by
  intro zero
  obtain ⟨c, member, same⟩ := List.mem_map.mp zero
  obtain ⟨j, key, -⟩ := genuine c member
  exact wires.nonzero j (key.symm.trans same)

/-- What a node says to one it knows is delivered if it fits into a packet. -/
theorem Transmits.sendEvents (wires : p.Transmits i k b) {m : MessageProto} {j j' : ι}
    (fits : (p.world j).byteSize m ≤ maxBodyLength) (apart : j ≠ j') (meant : m.toId = p.id j')
    {list : Bucket} {c : ContactProto} (found : list.lookup (p.id j') = some c)
    (at' : c.ep = (p.listen j').proto) :
    .delivered m (p.listen j') ∈ Node.sendEvents (p.world j) (p.id j) list m := by
  refine Node.delivered_mem_sendEvents.mpr ⟨rfl, ?_, c, ?_, ?_, fits⟩
  · rw [meant]
    exact fun same => apart (p.distinct same).symm
  · rwa [meant]
  · rw [at']
    exact wires.finds j j'

end Peers

namespace Network

/-- A node has run a round of a search: it asks whom the round picks, and nothing else has changed
that matters to others. -/
structure Rounds {ι : Type} (p : Peers ι) (i : ι) (q : Search) (lc : List ContactProto) (t : Token)
    (about : String) (net net' : Network ι) : Prop where
  down : net'.down = net.down
  others : ∀ j ≠ i, net'.nodes j = net.nodes j
  known : ∀ key, (net'.nodes i).contactList.lookup key = (net.nodes i).contactList.lookup key
  search : (net'.nodes i).mapSearch t = if q.ends lc then none else some (q.next lc)
  log : ∀ e ∈ (net.nodes i).log, e ∈ (net'.nodes i).log
  sent : ∀ c ∈ q.picks lc, ∀ e ∈ Node.sendEvents (p.world i) (p.id i) (net'.nodes i).contactList
    (Node.roundMessage q lc (p.id i) about t c.key), e ∈ (net'.nodes i).log

/-- What a round asks of a node that is known is delivered. -/
theorem Rounds.posts {ι : Type} {p : Peers ι} {i j : ι} {k about : String} {b : DataItemProto}
    {q : Search} {lc : List ContactProto} {t : Token} {net net' : Network ι}
    (round : Rounds p i q lc t about net net') (wires : p.Transmits i k b)
    (fits : (p.world i).byteSize (Node.roundMessage q lc (p.id i) about t (p.id j)) ≤ maxBodyLength)
    (apart : i ≠ j) (knows : p.Knows net i j) {c : ContactProto} (picked : c ∈ q.picks lc)
    (key : c.key = p.id j) :
    .delivered (Node.roundMessage q lc (p.id i) about t (p.id j)) (p.listen j) ∈
      (net'.nodes i).log := by
  obtain ⟨c', found, at'⟩ := knows
  refine round.sent c picked _ ?_
  rw [key]
  exact wires.sendEvents fits apart (Node.roundMessage_toId ..) ((round.known _).trans found) at'

end Network

namespace Network.Run

variable {ι : Type} [DecidableEq ι] {p : Peers ι} {maxRecords : ι → Nat} {storage : ι → Tables}
  {contacts : ι → Contacts}
  {inputs : List (ι × Node.Input)} {net : Network ι} {i j : ι} {t : Token} {k : String}
  {b : DataItemProto}

/-- A message arrives and is handled to its end. -/
theorem arrives (run : Run p maxRecords storage contacts inputs net) (up : i ∉ net.down)
    {m : MessageProto} {body : List UInt8} {s : Node}
    (sent : .delivered m (p.listen i) ∈ (net.nodes j).log)
    (packet : (p.world i).parse body = (true, m))
    (handled : Act.exec (Node.handleReceive (p.world i) (p.listen j) body) (net.nodes i) = (.ok (), s)) :
    ∃ net', Run p maxRecords storage contacts (inputs ++ [(i, .receive (p.listen j) body)]) net' ∧
      net'.down = net.down ∧ (∀ i' ≠ i, net'.nodes i' = net.nodes i') ∧ net'.nodes i = s := by
  refine ⟨_, run.arrive up sent packet handled, ?_, ?_, ?_⟩
  · ext j'
    simp [after, Survives]
  · intro i' other
    rw [nodes_after, if_neg other]
  · rw [nodes_after, if_pos rfl]

/-- A node runs something else to its end. -/
theorem acts (run : Run p maxRecords storage contacts inputs net) {input : Node.Input}
    (up : i ∉ net.down) (inner : ∀ ep body, input ≠ .receive ep body) {s : Node}
    (done : Act.exec (input.run (p.world i)) (net.nodes i) = (.ok (), s)) :
    ∃ net', Run p maxRecords storage contacts (inputs ++ [(i, input)]) net' ∧
      net'.down = net.down ∧ (∀ i' ≠ i, net'.nodes i' = net.nodes i') ∧ net'.nodes i = s := by
  refine ⟨_, run.act up inner done, ?_, ?_, ?_⟩
  · ext j'
    simp [after, Survives]
  · intro i' other
    rw [nodes_after, if_neg other]
  · rw [nodes_after, if_pos rfl]

/-- The contacts of a node were added under ids of nodes. -/
theorem table (resolves : p.Resolves) (run : Run p maxRecords storage contacts inputs net) (i : ι) :
    Bucket.Reached Canonical (p.id i) (net.nodes i).contactList := by
  have beside (inputs : List (ι × Node.Input)) (i : ι) : Node.Beside (p.world i)
      (fun s => Bucket.Reached Canonical (p.id i) s.contactList) (p.Met contacts inputs i) :=
    { still := fun s s' h list _ => list ▸ h
      add := fun s order pastEnd now k ep b h met added => by
        obtain ⟨j, ⟨rfl, -⟩, -⟩ := met
        exact h.add (canonical_keyToString _) added
      drop := fun s pos h => h.erase pos
      look := fun s k h => h.look k
      reads := .zoom fun _ h => h
      finds := fun k ep _ => .zoom fun _ h => h
      removes := fun k ep _ => .zoom fun _ h => h
      files := fun k ep _ => .zoom fun _ h => h }
  have rule (inputs : List (ι × Node.Input)) (i : ι) := (posts contacts inputs i).beside (beside inputs i)
  refine (run.keeps resolves rule (fun _ _ _ h => h.1) (fun inputs i _ =>
    (rule inputs i).handleSendFindValue fun _ _ h => ⟨h.1.id, trivial⟩) (fun _ call _ _ h => ?_)
    (fun i maxRecords => ⟨.initial (p.key i) maxRecords (storage i) (contacts i), .new⟩) i).2
  exact ⟨h.1.mono (fun _ told => told.later call) fun _ _ met => met.later call, h.2⟩

theorem proximity_genuine (run : Run p maxRecords storage contacts inputs net) (i : ι) (k : String) :
    ∀ c ∈ (net.nodes i).contactList.proximity k, p.Genuine c.key c.ep := by
  intro c member
  obtain ⟨key, -, found⟩ := List.mem_filterMap.mp member
  obtain ⟨c', there, rfl⟩ := Option.map_eq_some_iff.mp found
  obtain ⟨rfl, e, listed, rfl⟩ := Bucket.mem_of_lookup there
  exact (run.reachable.truthful i).contacts e listed

/-- A node that started on records and was handed clean strings holds records. -/
theorem keeping (run : Run p maxRecords storage contacts inputs net)
    (records : ∀ i, ∃ rs : RecordStore, storage i = rs.tables ∧ rs.CleanStrings)
    (clean : ∀ call ∈ inputs, call.2.Clean (p.world call.1)) (up : i ∉ net.down) :
    Node.Keeping (p.world i) (net.nodes i) := by
  induction run with
  | @start net out run stopped =>
    have fine : out i = .ok () := not_not.mp fun failed => up ((stopped i).mpr failed)
    obtain ⟨rs, same, strings⟩ := records i
    have started := run i
    rw [fine, same] at started
    exact .start strings started
  | @arrive inputs net i' j m body out s before up' sent packet run ih =>
    obtain ⟨earlier, now⟩ := List.forall_mem_append.mp clean
    rw [nodes_after]
    split
    · rename_i same
      subst same
      rw [← Node.Input.run] at run
      refine .step (ih earlier up') (now _ (List.mem_singleton_self _)) run ?_
      exact not_not.mp fun failed => up (.inr ⟨rfl, failed⟩)
    · exact ih earlier fun down => up (.inl down)
  | @act inputs net i' input out s before up' inner run ih =>
    obtain ⟨earlier, now⟩ := List.forall_mem_append.mp clean
    rw [nodes_after]
    split
    · rename_i same
      subst same
      refine .step (ih earlier up') (now (i, input) (List.mem_singleton_self _)) run ?_
      exact not_not.mp fun failed => up (.inr ⟨rfl, failed⟩)
    · exact ih earlier fun down => up (.inl down)

/-- Who is asked answers with a first packet of its contacts, and keeps its records. -/
theorem asked (run : Run p maxRecords storage contacts inputs net) (wires : p.Transmits i k b)
    (apart : i ≠ j) (up : j ∉ net.down)
    (sent : .delivered (Node.findNodeMessage (p.id i) (p.id j) k t) (p.listen j) ∈ (net.nodes i).log) :
    ∃ body net' part,
      Run p maxRecords storage contacts (inputs ++ [(j, .receive (p.listen i) body)]) net' ∧
      (Node.Input.receive (p.listen i) body).Clean (p.world j) ∧ net'.down = net.down ∧
      (∀ j' ≠ j, net'.nodes j' = net.nodes j') ∧
      (net'.nodes j).shelf = (net.nodes j).shelf ∧ part ≠ [] ∧ part.length ≤ alpha ∧
      .delivered (Node.nodeReply (p.id j) (p.id i) t part) (p.listen i) ∈ (net'.nodes j).log := by
  obtain ⟨body, packet⟩ := wires.reads j _ (.ask j t)
  have clean := (Peers.Said.ask j t).clean (b := b) (by simp [Node.findNodeMessage]) packet (p.listen i)
  have own : (net.nodes j).id = p.id j := (run.reachable.truthful j).id
  have message : ((p.world j).parse body).2 = Node.findNodeMessage (p.id i) (p.id j) k t :=
    congrArg Prod.snd packet
  obtain ⟨list, added, sane, received⟩ := Node.exec_receive_request (run.survivor up).sane (p.listen i)
    message (by simp [Node.findNodeMessage])
  obtain ⟨c, found, at'⟩ := run.lookup_added apart added
  have routable : Node.Routable { net.nodes j with
      senderEndpoint := p.listen i, ticks := (net.nodes j).ticks + 1, contactList := list } (p.id i) c :=
    { nonzero := wires.nonzero i
      other := fun same => apart (p.distinct (same.trans own))
      found := found
      named := at' ▸ (p.listen i).proto_named }
  obtain ⟨parts, chunks, replied⟩ := Node.exec_replyFindNode (w := p.world j) (t := t) routable
  obtain ⟨part, rest, rfl⟩ : ∃ part rest, parts = part :: rest := by
    refine List.exists_cons_of_ne_nil fun none => ?_
    obtain ⟨-, e, there, -⟩ := Bucket.mem_of_lookup found
    have empty := chunks.flatten
    rw [none, List.flatten_nil] at empty
    exact List.ne_nil_of_mem (List.mem_map_of_mem there) empty.symm
  obtain ⟨some, few⟩ := chunks.bounds part List.mem_cons_self
  have handled : Act.exec (Node.handleReceive (p.world j) (p.listen i) body) (net.nodes j) =
      (.ok (), _) :=
    received.trans (Act.exec_rethrowAs_ok.mpr replied)
  obtain ⟨net', run', down, others, here⟩ := run.arrives up sent packet handled
  refine ⟨body, net', part, run', clean, down, others, ?_, List.length_pos_iff.mp some, few, ?_⟩
  · rw [here]
    rfl
  · have genuine : ∀ c ∈ part, p.Genuine c.key c.ep := by
      intro c member
      have packets := (run'.reachable.truthful j).sent
      rw [here] at packets
      refine (packets (.request (Node.nodeReply (p.id j) (p.id i) t part)) ?_).2 c member
      rw [Node.logged_log, ← own]
      exact List.mem_append_right _ List.mem_cons_self
    have delivered := wires.handOver (.answer j t few genuine) j i
    rw [here, Node.logged_log, Node.sendAll, List.map_cons, List.flatMap_cons, at', own]
    exact List.mem_append_right _ (List.mem_append_left _ (List.mem_cons_of_mem _ delivered))

/-- Who is answered runs a round of its search. -/
theorem told (run : Run p maxRecords storage contacts inputs net) (wires : p.Transmits i k b)
    (up : i ∉ net.down) {q : Search} (here : (net.nodes i).mapSearch t = some q)
    {part : List ContactProto} (few : part.length ≤ alpha)
    (sent : .delivered (Node.nodeReply (p.id j) (p.id i) t part) (p.listen i) ∈ (net.nodes j).log) :
    ∃ body net', Run p maxRecords storage contacts (inputs ++ [(i, .receive (p.listen j) body)]) net' ∧
      (Node.Input.receive (p.listen j) body).Clean (p.world i) ∧
      Rounds p i q part t (p.id i) net net' := by
  have truthful := run.reachable.truthful
  have genuine : ∀ c ∈ part, p.Genuine c.key c.ep := ((truthful j).sent _ sent).2
  obtain ⟨body, packet⟩ := wires.reads i _ (.answer j t few genuine)
  have clean := (Peers.Said.answer j t few genuine).clean (k := k) (b := b) (by simp [Node.nodeReply])
    packet (p.listen j)
  have sane : Node.Sane { net.nodes i with senderEndpoint := p.listen j } :=
    (run.survivor up).sane.congr rfl
  have named : Search.AllNamed part := by
    intro c member
    obtain ⟨j', -, ep⟩ := genuine c member
    exact ep ▸ (p.listen j').proto_named
  have safe : Node.RoundSafe q part (p.id i) :=
    Node.roundSafe_of_nonzero (wires.keys_nonzero ((truthful i).searches t q here))
      (wires.keys_nonzero genuine) fun _ => wires.nonzero i
  obtain ⟨s', returned, -⟩ := Node.reply_returns (w := p.world i)
    (m := Node.nodeReply (p.id j) (p.id i) t part) sane here named (wires.keys_nonzero genuine) safe
  have handled : Act.exec (Node.handleReceive (p.world i) (p.listen j) body) (net.nodes i) =
      (.ok (), s') := by
    rw [Node.exec_handleReceive, packet, Act.exec_rethrowAs_ok]
    exact returned
  obtain ⟨net', run', down, others, now⟩ := run.arrives up sent packet handled
  obtain ⟨-, -, s₁, ⟨ticks, draws, pings, es, rfl, -⟩, -, rfl⟩ := Node.reply_cases sane here returned
  refine ⟨body, net', run', clean, down, others, fun key => ?_, ?_, fun e old => ?_,
    fun c picked e seen => ?_⟩
  · rw [now, Node.logged_contactList, Node.afterRound_contactList]
  · rw [now, Node.logged_mapSearch]
    exact Node.afterRound_at ..
  · rw [now, Node.logged_log, Node.afterRound_log]
    exact List.mem_append_left _ (List.mem_append_left _ old)
  · rw [now, Node.logged_contactList, Node.afterRound_contactList] at seen
    rw [now, Node.logged_log, Node.afterRound_log]
    have taken : c ∈ Node.taken q part (p.id i) := by rwa [Node.taken_safe safe]
    refine List.mem_append_right _ (Node.mem_roundEvents.mpr ⟨c, taken, ?_⟩)
    have asked : e ∈ Node.sendEvents (p.world i) (net.nodes i).id (net.nodes i).contactList
        (Node.roundMessage q part (net.nodes i).id (p.id i) t c.key) := by rwa [(truthful i).id]
    exact asked

/-- A client has a node search: the search begins with a round for the contacts of the node. -/
theorem opens (run : Run p maxRecords storage contacts inputs net) (wires : p.Transmits i k b)
    (up : i ∉ net.down) {input : Node.Input} (inner : ∀ ep body, input ≠ .receive ep body)
    {q : Search} (fresh : q.shortList = []) {about : String}
    (keyed : q.searchType = .store → about ≠ zeroId)
    (began : Node.RoundSafe q ((net.nodes i).contactList.proximity about) about →
      Act.exec (input.run (p.world i)) (net.nodes i) =
        (.ok (), (((net.nodes i).begun (p.world i) q about).afterRound q
            ((net.nodes i).contactList.proximity about)
            (Node.tokenAt (p.world i) (net.nodes i).draws)).logged
          (Node.roundEvents (p.world i) ((net.nodes i).begun (p.world i) q about) q
            ((net.nodes i).contactList.proximity about)
            (Node.tokenAt (p.world i) (net.nodes i).draws) about))) :
    ∃ net', Run p maxRecords storage contacts (inputs ++ [(i, input)]) net' ∧
      Rounds p i q ((net.nodes i).contactList.proximity about)
        (Node.tokenAt (p.world i) (net.nodes i).draws) about net net' := by
  have safe : Node.RoundSafe q ((net.nodes i).contactList.proximity about) about :=
    Node.roundSafe_of_nonzero (by simp [fresh, Search.keys])
      (wires.keys_nonzero (run.proximity_genuine i about)) keyed
  have began := began safe
  generalize Node.tokenAt (p.world i) (net.nodes i).draws = t at began ⊢
  have contacts := Node.begun_lookup (p.world i) (net.nodes i) q about
  have own : ((net.nodes i).begun (p.world i) q about).id = p.id i := (run.reachable.truthful i).id
  have old : ((net.nodes i).begun (p.world i) q about).log = (net.nodes i).log := rfl
  generalize (net.nodes i).begun (p.world i) q about = s at began contacts own old
  obtain ⟨net', run', down, others, now⟩ := run.acts up inner began
  refine ⟨net', run', down, others, fun key => ?_, ?_, fun e there => ?_, fun c picked e seen => ?_⟩
  · rw [now, Node.logged_contactList, Node.afterRound_contactList, contacts]
  · rw [now, Node.logged_mapSearch]
    exact Node.afterRound_at ..
  · rw [now, Node.logged_log, Node.afterRound_log, old]
    exact List.mem_append_left _ there
  · rw [now, Node.logged_contactList, Node.afterRound_contactList, ← own] at seen
    rw [now, Node.logged_log, Node.afterRound_log]
    refine List.mem_append_right _ (Node.mem_roundEvents.mpr ⟨c, ?_, seen⟩)
    rwa [Node.taken_safe safe]

/-- A client stores an item. -/
theorem begins (run : Run p maxRecords storage contacts inputs net) (wires : p.Transmits i k b)
    (up : i ∉ net.down) (keyed : k ≠ zeroId) :
    ∃ net', Run p maxRecords storage contacts (inputs ++ [(i, .iterativeStore k b)]) net' ∧
      Rounds p i { Search.new (p.id i) k .store with buffer := b }
        ((net.nodes i).contactList.proximity k) (Node.tokenAt (p.world i) (net.nodes i).draws) k
        net net' :=
  run.opens wires up (by simp) rfl (fun _ => keyed)
    (Node.begin_returns (run.survivor up).sane (by rw [(run.reachable.truthful i).id])
      (Node.store_ready _ k b))

/-- A client looks up a value. -/
theorem looksUp (run : Run p maxRecords storage contacts inputs net) (wires : p.Transmits i k b)
    (up : i ∉ net.down) (about : String) (c : Nat) (hint : String) :
    ∃ net', Run p maxRecords storage contacts (inputs ++ [(i, .iterativeFindValue about c hint)]) net' ∧
      Rounds p i { Search.new (p.id i) about .value with valueCallback := some c, hint := hint }
        ((net.nodes i).contactList.proximity about) (Node.tokenAt (p.world i) (net.nodes i).draws)
        about net net' :=
  run.opens wires up (by simp) rfl (fun other => by cases other) fun safe =>
    Act.exec_rethrowAs_ok.mpr (Node.begin_returns (run.survivor up).sane
      (by rw [(run.reachable.truthful i).id]) (Node.value_ready _ about hint c) safe)

/-- Who gets the item has it then, among the records it holds. -/
theorem filed (run : Run p maxRecords storage contacts inputs net) (wires : p.Transmits i k b)
    (up : j ∉ net.down) (sound : (p.world j).storage.Sound) (title : Clean b.title) {rs : RecordStore}
    (held : (net.nodes j).dbStorage.tables = rs.tables) (room : 0 < (net.nodes j).maxRecords)
    {about : String} (one : about = k ∨ about = p.id i)
    (sent : .delivered (Node.storeMessage (p.id i) (p.id j) about b t) (p.listen j) ∈
      (net.nodes i).log) :
    ∃ body net', Run p maxRecords storage contacts (inputs ++ [(j, .receive (p.listen i) body)]) net' ∧
      (Node.Input.receive (p.listen i) body).Clean (p.world j) ∧ net'.down = net.down ∧
      (∀ j' ≠ j, net'.nodes j' = net.nodes j') ∧
      ∃ rs' : RecordStore, (net'.nodes j).dbStorage.tables = rs'.tables ∧
        ∃ r ∈ rs'.records, r.pair = (p.id j, b.title) ∧
          (rs.Absent (p.id j) b.title → r.data = b.data ∧ r.ttl = toSigned b.ttl) := by
  obtain ⟨body, packet⟩ := wires.reads j _ (.item j t one)
  have message : ((p.world j).parse body).2 = Node.storeMessage (p.id i) (p.id j) about b t :=
    congrArg Prod.snd packet
  have sane := (run.survivor up).sane
  have strings : Clean (p.id j) ∧ Clean b.title := ⟨clean_keyToString _, title⟩
  obtain ⟨s', returned⟩ := Node.receive_store_returns sane sound held (p.listen i) message rfl strings
    (.inr room) (wires.nonzero i)
  obtain ⟨rs', stored, holds⟩ := Node.receive_store sane sound held message rfl strings returned trivial
  obtain ⟨net', run', down, others, now⟩ := run.arrives up sent packet returned
  have clean := (Peers.Said.item j t one).clean (fun _ => title) packet (p.listen i)
  refine ⟨body, net', run', clean, down, others, rs', ?_, stored.there⟩
  rw [now]
  exact holds.1

end Network.Run

end MiniDht
