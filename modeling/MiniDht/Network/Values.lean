import MiniDht.Network.Delivery
import MiniDht.Node.OwnKey

/-!
# What becomes of values

An item is sent to a node with that node's id for a recipient, and filed under it; a value is
looked up under the id of the node that asks. In a network no node is asked by itself, so
whatever was stored, and whoever looks for it, nothing is ever found (`values_unfound`).
-/

namespace MiniDht

open Lib

namespace Network.Run

variable {ι : Type} [DecidableEq ι] {p : Peers ι} {maxRecords : ι → Nat} {storage : ι → Tables}
  {contacts : ι → Contacts}
  {inputs : List (ι × Node.Input)} {net : Network ι}

/-- No node means to send values to anybody, each stores under its own key alone, and no message
with values has come in. -/
structure Unfound (p : Peers ι) (inputs : List (ι × Node.Input)) (net : Network ι) : Prop where
  posted : ∀ i, Node.Posted (p.world i) (· ≠ .replyFindValue) (fun _ => True) (fun _ _ => True)
    (p.id i) (net.nodes i)
  stored : ∀ i, Node.OwnKey (p.id i) (net.nodes i)
  got : ∀ i ep body, (i, .receive ep body) ∈ inputs →
    ((p.world i).parse body).2.type ≠ .replyFindValue

theorem unfound (resolves : p.Resolves) (own : ∀ i, (storage i).Under (p.id i))
    (run : Run p maxRecords storage contacts inputs net)
    (clean : ∀ call ∈ inputs, call.2.Clean (p.world call.1)) : Unfound p inputs net := by
  have rule (i : ι) : Node.Posts (p.world i) (Node.Posted (p.world i) (· ≠ .replyFindValue)
      (fun _ => True) (fun _ _ => True) (p.id i)) _ _ _ :=
    Node.Posted.posts fun _ other => other
  induction run with
  | @start net out run stopped =>
    refine ⟨fun i => ?_, fun i => ?_, fun i ep body member => by cases member⟩
    · have kept := (rule i).restoreFromBackup (fun _ _ _ _ _ => trivial) _ rfl
        (Node.Posted.initial (p.key i) (maxRecords i) (storage i) (contacts i))
      rwa [run i] at kept
    · have still : Node.Allows (p.world i) (Node.OwnKey (p.id i)) _ _ := Node.ownKey_allows
      have kept := Act.Keeps.bind (still.onBackup (DbKeyValue.listValue (p.world i).backup))
        (fun entries => still.pingBackup entries)
        (Node.initial (p.key i) (maxRecords i) (storage i) (contacts i)) (own i)
      rw [← Node.restoreFromBackup, run i] at kept
      exact kept
  | @arrive inputs net i j m body out s before up sent packet run ih =>
    obtain ⟨earlier, now⟩ := List.forall_mem_append.mp clean
    have cleanly : (Node.Input.receive (p.listen j) body).Clean (p.world i) :=
      now _ (List.mem_singleton_self _)
    obtain ⟨posted, stored, got⟩ := ih earlier
    obtain ⟨-, meant⟩ := (before.overlay_introduced resolves j).2 m i sent
    have message : ((p.world i).parse body).2 = m := congrArg Prod.snd packet
    refine ⟨forall_after posted ?_, forall_after stored ?_, ?_⟩
    · have kept := (rule i).run (.receive (p.listen j) body) ⟨trivial, fun find s' h same => ?_⟩
        (posted i)
      · rwa [Node.Input.run, run] at kept
      · refine h.handleSendFindValue_own (fun _ other => other) ?_ (cleanly.2 find) ?_
        · rw [message] at find ⊢
          rw [((posted j).sent m _ sent).1]
          rcases meant with ping | ⟨-, apart⟩
          · rw [find] at ping
            cases ping
          · exact fun self => apart (p.distinct self).symm
        · rw [Node.OwnKey, same]
          exact stored i
    · have kept := Node.ownKey_run (p.id i) _ cleanly (fun ep body' same store => ?_) _ (stored i)
      · rwa [Node.Input.run, run] at kept
      · cases same
        rw [message] at store ⊢
        rcases meant with ping | ⟨mine, -⟩
        · rw [store] at ping
          cases ping
        · exact mine
    · intro i' ep body' member
      rcases List.mem_append.mp member with old | new
      · exact got i' ep body' old
      · cases List.mem_singleton.mp new
        rw [message]
        exact (posted j).meant _ sent
  | @act inputs net i input out s before up inner run ih =>
    obtain ⟨earlier, now⟩ := List.forall_mem_append.mp clean
    obtain ⟨posted, stored, got⟩ := ih earlier
    refine ⟨forall_after posted ?_, forall_after stored ?_, ?_⟩
    · have kept := (rule i).run input ?_ (posted i)
      · rwa [run] at kept
      · cases input with
        | receive ep body => exact absurd rfl (inner ep body)
        | _ => trivial
    · have kept := Node.ownKey_run (p.id i) input (now (i, input) (List.mem_singleton_self _))
        (fun ep body same => absurd same (inner ep body)) _ (stored i)
      rwa [run] at kept
    · intro i' ep body member
      rcases List.mem_append.mp member with old | new
      · exact got i' ep body old
      · cases List.mem_singleton.mp new
        exact absurd rfl (inner ep body)

/-- **Values are never found.** In a run of nodes that store nothing under other keys when they
start, and are handed clean strings, no node ever asks for an answer with a value to be sent, to
itself or to another, and none gets such an answer and calls its client: each keeps all it stores
under its own key. -/
theorem values_unfound (resolves : p.Resolves) (own : ∀ i, (storage i).Under (p.id i))
    (run : Run p maxRecords storage contacts inputs net)
    (clean : ∀ call ∈ inputs, call.2.Clean (p.world call.1)) :
    (∀ i, ∀ e ∈ (net.nodes i).log, e.message.type ≠ .replyFindValue) ∧
      (∀ i ep body, (i, .receive ep body) ∈ inputs →
        ((p.world i).parse body).2.type ≠ .replyFindValue) ∧
      ∀ i, ∀ h ∈ (net.nodes i).dbStorage.tables.dataHeader, h.key = p.id i :=
  have after := run.unfound resolves own clean
  ⟨fun i => (after.posted i).meant, after.got, after.stored⟩

/-- The theorem for three nodes, where one has an item stored and looks it up. The request gets to a
node that keeps the item. -/
theorem values_unfound_asked : ∃ (p : Peers (Fin 3)) (inputs : List (Fin 3 × Node.Input))
    (k : String) (b : DataItemProto) (body : List UInt8) (net net' : Network (Fin 3)),
    Run p (fun _ => 10) (fun _ => {}) (fun _ => []) inputs net ∧
      (0, .iterativeStore k b) ∈ inputs ∧ (0, .iterativeFindValue k 0 "") ∈ inputs ∧
      (∃ rs : RecordStore, (net.nodes 1).dbStorage.tables = rs.tables ∧
        ∃ r ∈ rs.records, r.pair = (p.id 1, b.title)) ∧
      ((p.world 1).parse body).2.type = .sendFindValue ∧ ((p.world 1).parse body).2.queryId = k ∧
      Run p (fun _ => 10) (fun _ => {}) (fun _ => [])
        (inputs ++ [(1, .receive (p.listen 0) body)]) net' ∧
      (∀ i, ∀ e ∈ (net'.nodes i).log, e.message.type ≠ .replyFindValue) ∧
      ∀ i, ∀ h ∈ (net'.nodes i).dbStorage.tables.dataHeader, h.key = p.id i := by
  obtain ⟨read, reads⟩ := Peers.exists_reader
  let b : DataItemProto := { title := "a", data := [1] }
  obtain ⟨inputs, net, run, clean, stores, up, knows, rs, held, r, member, pair⟩ :=
    trio_stored reads (b := b) (by decide)
  have wires := Peers.trio_transmits reads 0 "0c" b
  -- The request is on its way to node 1.
  obtain ⟨net₁, run₁, round⟩ := run.looksUp wires (up 0) "0c" 0 ""
  let q : Search :=
    { Search.new ((Peers.trio read).id 0) "0c" .value with valueCallback := some 0, hint := "" }
  obtain ⟨c, picked, key⟩ := run.picks_contact (q := q) wires.resolves (by decide) knows rfl rfl rfl rfl
  generalize Node.tokenAt ((Peers.trio read).world 0) (net.nodes 0).draws = t at round
  let m := Node.findValueMessage ((Peers.trio read).id 0) ((Peers.trio read).id 1) "0c" t ""
  have asked : .delivered m ((Peers.trio read).listen 1) ∈ (net₁.nodes 0).log :=
    round.posts wires (Nat.zero_le _) (by decide) knows picked key
  obtain ⟨n, packet⟩ := reads m
  let body : List UInt8 := List.replicate n 0
  have parsed : ((Peers.trio read).world 1).parse body = (true, m) := by
    rw [← packet]
    simp [Peers.trio, body]
  obtain ⟨out, s, handled⟩ : ∃ out s, Act.exec (Node.handleReceive ((Peers.trio read).world 1)
    ((Peers.trio read).listen 0) body) (net₁.nodes 1) = (out, s) := ⟨_, _, rfl⟩
  have run₂ := run₁.arrive (round.down ▸ up 1) asked parsed handled
  have request : (Node.Input.receive ((Peers.trio read).listen 0) body).Clean
      ((Peers.trio read).world 1) := by
    rw [Node.Input.Clean, parsed]
    exact ⟨by simp [m, Node.findValueMessage], fun _ => ⟨clean_keyToString _, clean_keyToString _⟩⟩
  have clean' : ∀ call ∈ inputs ++ [(0, .iterativeFindValue "0c" 0 "")] ++
      [(1, .receive ((Peers.trio read).listen 0) body)],
      call.2.Clean ((Peers.trio read).world call.1) := by
    intro call member
    rw [List.mem_append, List.mem_append, List.mem_singleton, List.mem_singleton] at member
    rcases member with (old | rfl) | rfl
    · exact clean call old
    · trivial
    · exact request
  obtain ⟨silent, -, stored⟩ := values_unfound wires.resolves (fun _ h none => by cases none) run₂ clean'
  refine ⟨_, _, "0c", b, body, net₁, _, run₁, by simp [stores], by simp, ⟨rs, ?_, r, member, pair⟩, ?_, ?_,
    run₂, silent, stored⟩
  · rw [round.others 1 (by decide), held]
  · rw [parsed]
    rfl
  · rw [parsed]
    rfl

end Network.Run

end MiniDht
