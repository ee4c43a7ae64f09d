import MiniDht.Network.Greeting
import MiniDht.Node.Backups

/-!
# What is left when a network stops

The backups of the nodes tell where other nodes listen, and nothing else. So when all processes
end, and start again on what they left, each pings nodes that it had met; and a node and one it
has in its backup meet again without being told of each other (`reunites`).
-/

namespace MiniDht

open Lib

namespace Peers

variable {ι : Type} (p : Peers ι)

/-- The row of a node in a backup. -/
def row (j : ι) : String × String := (p.id j, endpointToString (p.listen j).proto)

/-- The backups hold rows of nodes alone. -/
def Backs (contacts : ι → Contacts) : Prop := ∀ i, ∀ r ∈ contacts i, ∃ j, r = p.row j

variable {p} {contacts : ι → Contacts}

theorem Met.clean {inputs : List (ι × Node.Input)} {i : ι} {k : String} {ep : EndpointProto}
    (dotted : ∀ j, (p.listen j).Dotted) (met : p.Met contacts inputs i k ep) :
    Clean k ∧ Clean (endpointToString ep) := by
  obtain ⟨j, ⟨rfl, rfl⟩, -⟩ := met
  exact ⟨clean_keyToString _, (dotted j).clean⟩

/-- The endpoints a backup tells. -/
theorem Backs.saved (backs : p.Backs contacts) (i : ι) :
    ∃ eps, Saved (contacts i) eps ∧ ∀ ep ∈ eps, ∃ j, ep = (p.listen j).proto := by
  have rows : RowsOf (fun ep => ∃ j, ep = (p.listen j).proto) (contacts i) := by
    intro r member
    obtain ⟨j, rfl⟩ := backs i r member
    exact ⟨_, ⟨j, rfl⟩, rfl⟩
  obtain ⟨eps, values, nodes⟩ := rows.exists_values
  refine ⟨eps, ⟨values, fun ep member => ?_⟩, nodes⟩
  obtain ⟨j, rfl⟩ := nodes ep member
  exact (p.listen j).proto_named

theorem mem_of_row {i j : ι} {eps : List EndpointProto} (dotted : ∀ j, (p.listen j).Dotted)
    (saved : Saved (contacts i) eps) (nodes : ∀ ep ∈ eps, ∃ j, ep = (p.listen j).proto)
    (here : p.row j ∈ contacts i) : (p.listen j).proto ∈ eps := by
  obtain ⟨ep, there, text⟩ := saved.row here
  obtain ⟨j', rfl⟩ := nodes ep there
  have cut := stringToEndpointPair_endpointToString (dotted j).plain
  have cut' := stringToEndpointPair_endpointToString (dotted j').plain
  rw [← text, row, cut] at cut'
  obtain ⟨address, port⟩ := Prod.mk.inj (Except.ok.inj cut')
  have same : (p.listen j).proto = (p.listen j').proto := EndpointProto.mk.injEq .. ▸ ⟨address, port⟩
  rwa [same]

/-- A node comes up on such a backup, and pings the nodes it tells of. -/
theorem Backs.restored (backs : p.Backs contacts) (sound : ∀ i, (p.world i).backup.Sound)
    (dotted : ∀ j, (p.listen j).Dotted) (i : ι) (maxRecords : Nat) (storage : Tables) :
    ∃ s, Act.exec (Node.restoreFromBackup (p.world i))
        (Node.initial (p.key i) maxRecords storage (contacts i)) = (.ok (), s) ∧
      s.dbBackup.tables = contacts i ∧
      ∀ j, p.row j ∈ contacts i → (p.world i).resolve (p.listen j).proto = some (p.listen j) →
        (∀ t, (p.world i).byteSize (p.hello i t) ≤ maxBodyLength) →
        Node.Awaits (p.world i) s (p.listen j) := by
  obtain ⟨eps, saved, nodes⟩ := backs.saved i
  have plain (ep : EndpointProto) (member : ep ∈ eps) : ep.Plain := by
    obtain ⟨j, rfl⟩ := nodes ep member
    exact (dotted j).plain
  obtain ⟨s, up, kept, pinged⟩ := Node.restored (sound i) saved plain (p.key i) maxRecords storage
  exact ⟨s, up, kept, fun j here finds fits => pinged fits _ (mem_of_row dotted saved nodes here) _ finds⟩

/-- Two nodes that read a packet by its length: as a ping of the first, or as the answer to it. -/
def greeters : Peers Bool :=
  { pair [] with
    world := fun _ => { World.simple [] with
      parse := fun body =>
        (true, if body.length % 2 = 0 then (pair []).hello false (.ofNat (body.length / 2))
          else (pair []).welcome true false (.ofNat (body.length / 2))) } }

theorem greeters_talk (t : Token) : greeters.CanTalk false true t where
  apart := Bool.false_ne_true
  dials := pair_finds [] false true
  answers := pair_finds [] true false
  fits := Nat.zero_le _
  fits' := Nat.zero_le _
  reads := by
    refine ⟨List.replicate (2 * t.toNat) 0, ?_⟩
    simp only [greeters, List.length_replicate, Nat.mul_mod_right, if_pos]
    rw [Nat.mul_div_cancel_left _ (by decide), UInt32.ofNat_toNat]
    rfl
  reads' := by
    refine ⟨List.replicate (2 * t.toNat + 1) 0, ?_⟩
    have odd : ¬ (2 * t.toNat + 1) % 2 = 0 := by omega
    have half : (2 * t.toNat + 1) / 2 = t.toNat := by omega
    simp only [greeters, List.length_replicate, if_neg odd]
    rw [half, UInt32.ofNat_toNat]
    rfl
  clock _ _ _ := le_rfl
  nonzero := by decide

end Peers

namespace Network

variable {ι : Type} {p : Peers ι}

/-- What the nodes leave in their backups. -/
def backups (net : Network ι) (i : ι) : Contacts := (net.nodes i).dbBackup.tables

namespace Run

variable [DecidableEq ι] {maxRecords : ι → Nat} {storage : ι → Tables} {contacts : ι → Contacts}
  {inputs : List (ι × Node.Input)} {net : Network ι}

/-- A row that is in the backup was there at the start, or is that of a node that was met. -/
theorem backed (resolves : p.Resolves) (dotted : ∀ j, (p.listen j).Dotted)
    (run : Run p maxRecords storage contacts inputs net) (i : ι) :
    ∀ r ∈ net.backups i, r ∈ contacts i ∨ ∃ j, r = p.row j ∧ p.Introduced contacts inputs i j := by
  let Old (inputs : List (ι × Node.Input)) (i : ι) (t : Contacts) : Prop :=
    ∀ r ∈ t, r ∈ contacts i ∨ ∃ j, r = p.row j ∧ p.Introduced contacts inputs i j
  have rule (inputs : List (ι × Node.Input)) (i : ι) := (posts contacts inputs i).beside
    (Node.Beside.backing (J := Old inputs i) (fun _ _ => Peers.Met.clean dotted)
      (fun t k old r member => old r (List.mem_filter.mp member).1) fun t k ep met old r member => by
        rcases List.mem_append.mp member with there | new
        · exact old r there
        · obtain ⟨j, ⟨rfl, rfl⟩, both⟩ := met
          exact .inr ⟨j, List.mem_singleton.mp new, both⟩)
  refine (run.keeps resolves rule (fun _ _ _ h => h.1) (fun inputs i _ =>
    (rule inputs i).handleSendFindValue fun _ _ h => ⟨h.1.id, trivial⟩) (fun _ call _ _ h => ?_)
    (fun i maxRecords => ⟨.initial (p.key i) maxRecords (storage i) (contacts i), fun _ => .inl⟩) i).2
  refine ⟨h.1.mono (fun _ told => told.later call) fun _ _ met => met.later call, fun r member => ?_⟩
  exact (h.2 r member).imp_right fun ⟨j, same, both⟩ => ⟨j, same, both.later call⟩

/-- So backups of nodes become backups of nodes. -/
theorem backs (resolves : p.Resolves) (dotted : ∀ j, (p.listen j).Dotted) (old : p.Backs contacts)
    (run : Run p maxRecords storage contacts inputs net) : p.Backs net.backups := by
  intro i r member
  rcases run.backed resolves dotted i r member with there | ⟨j, same, -⟩
  · exact old i r there
  · exact ⟨j, same⟩

/-- A network that starts on such backups comes up, and its nodes have pinged each other. -/
theorem awaits (sound : ∀ i, (p.world i).backup.Sound) (dotted : ∀ j, (p.listen j).Dotted)
    (old : p.Backs contacts) (start : Run p maxRecords storage contacts [] net) :
    net.down = ∅ ∧ ∀ i j, p.row j ∈ contacts i →
      (p.world i).resolve (p.listen j).proto = some (p.listen j) →
      (∀ t, (p.world i).byteSize (p.hello i t) ≤ maxBodyLength) →
      Node.Awaits (p.world i) (net.nodes i) (p.listen j) := by
  obtain ⟨out, run, stopped⟩ := start.start_run
  have comes (i : ι) : out i = .ok () ∧ ∀ j, p.row j ∈ contacts i →
      (p.world i).resolve (p.listen j).proto = some (p.listen j) →
      (∀ t, (p.world i).byteSize (p.hello i t) ≤ maxBodyLength) →
      Node.Awaits (p.world i) (net.nodes i) (p.listen j) := by
    obtain ⟨s, up, -, pinged⟩ := old.restored sound dotted i (maxRecords i) (storage i)
    obtain ⟨ok, rfl⟩ := Prod.mk.inj ((run i).symm.trans up)
    exact ⟨ok, pinged⟩
  refine ⟨?_, fun i => (comes i).2⟩
  ext i
  simp [stopped, (comes i).1]

/-- Nodes can start on such backups, and have them then. -/
theorem exists_start (sound : ∀ i, (p.world i).backup.Sound) (dotted : ∀ j, (p.listen j).Dotted)
    (old : p.Backs contacts) : ∃ net, Run p maxRecords storage contacts [] net ∧
      net.backups = contacts := by
  choose nodes up kept _ using fun i => old.restored sound dotted i (maxRecords i) (storage i)
  exact ⟨{ nodes, down := ∅ }, .start (fun _ => .ok ()) up (by simp), funext kept⟩

/-- A node and one it has in its backup meet when they start again. -/
theorem comes_back (sound : ∀ i, (p.world i).backup.Sound) (dotted : ∀ j, (p.listen j).Dotted)
    (old : p.Backs contacts) (start : Run p maxRecords storage contacts [] net) {i j : ι}
    (talk : ∀ t, p.CanTalk i j t) (here : p.row j ∈ contacts i) :
    ∃ t ping pong net', (p.world j).parse ping = (true, p.hello i t) ∧
      (p.world i).parse pong = (true, p.welcome j i t) ∧
      Run p maxRecords storage contacts
        [(j, .receive (p.listen i) ping), (i, .receive (p.listen j) pong)] net' ∧
      p.Knows net' i j ∧ p.Knows net' j i := by
  obtain ⟨down, pinged⟩ := start.awaits sound dotted old
  obtain ⟨t, n, sent, noted, earlier⟩ := pinged i j here (talk 0).dials fun t => (talk t).fits
  have own : (net.nodes i).id = p.id i := (start.reachable.truthful i).id
  rw [own] at sent
  obtain ⟨ping, net₁, run₁, asks, down₁, same₁, known, -, answered⟩ :=
    start.answers (talk t) (by simp [down]) sent
  have kept : net₁.nodes i = net.nodes i := same₁ i (talk t).apart
  obtain ⟨pong, net₂, run₂, answers, -, same₂, known', -⟩ := run₁.greeted (talk t) (by simp [down₁, down])
    answered (by rw [kept, noted]) (by rwa [kept])
  refine ⟨t, ping, pong, net₂, asks, answers, run₂, known', ?_⟩
  rwa [Peers.Knows, same₂ j (talk t).apart.symm]

/-- **Reunion.** However a network has run that started on backups of nodes, it leaves backups of
nodes; and if all processes end, and start again on these with other clocks and random numbers,
they come up, and each node meets every node it has in its backup, and gets through to, again: the
ping it sends from the backup arrives, and the answer to it. -/
theorem reunites {p' : Peers ι} {maxRecords' : ι → Nat} {storage' : ι → Tables}
    (ids : ∀ i, p'.id i = p.id i) (listens : ∀ i, p'.listen i = p.listen i) (resolves : p.Resolves)
    (dotted : ∀ j, (p.listen j).Dotted) (sound : ∀ i, (p'.world i).backup.Sound)
    (old : p.Backs contacts) (run : Run p maxRecords storage contacts inputs net) :
    p.Backs net.backups ∧ ∀ net', Run p' maxRecords' storage' net.backups [] net' →
      net'.down = ∅ ∧ ∀ i j, p.row j ∈ net.backups i → (∀ t, p'.CanTalk i j t) →
        ∃ t ping pong net'', (p'.world j).parse ping = (true, p'.hello i t) ∧
          (p'.world i).parse pong = (true, p'.welcome j i t) ∧
          Run p' maxRecords' storage' net.backups
            [(j, .receive (p.listen i) ping), (i, .receive (p.listen j) pong)] net'' ∧
          p'.Knows net'' i j ∧ p'.Knows net'' j i := by
  have left := run.backs resolves dotted old
  have rows (j : ι) : p'.row j = p.row j := by rw [Peers.row, ids, listens, Peers.row]
  have left' : p'.Backs net.backups := by
    intro i r member
    obtain ⟨j, same⟩ := left i r member
    exact ⟨j, same.trans (rows j).symm⟩
  have dotted' (j : ι) : (p'.listen j).Dotted := listens j ▸ dotted j
  refine ⟨left, fun net' start => ⟨(start.awaits sound dotted' left').1, fun i j here talk => ?_⟩⟩
  have met := start.comes_back sound dotted' left' talk (rows j ▸ here)
  rwa [listens, listens] at met

/-- The theorem for two nodes one of which has the other in its backup. -/
theorem reunites_pair : ∃ (p : Peers Bool) (contacts : Bool → Contacts)
    (inputs : List (Bool × Node.Input)) (net : Network Bool),
    contacts false = [p.row true] ∧ Run p (fun _ => 10) (fun _ => {}) contacts inputs net ∧
      p.Knows net false true ∧ p.Knows net true false := by
  let contacts (i : Bool) : Contacts := if i then [] else [Peers.greeters.row true]
  have old : Peers.greeters.Backs contacts := by
    intro i r member
    cases i with
    | false => exact ⟨true, List.mem_singleton.mp member⟩
    | true => cases member
  have dotted (j : Bool) : (Peers.greeters.listen j).Dotted := by
    cases j
    · exact (by decide : ((Peers.pair []).listen false).Dotted)
    · exact (by decide : ((Peers.pair []).listen true).Dotted)
  have resolves : Peers.greeters.Resolves := Peers.pair_resolves []
  have sound (i : Bool) : (Peers.greeters.world i).backup.Sound := Sqlite.inOrder_sound
  obtain ⟨net, run, kept⟩ : ∃ net, Run Peers.greeters (fun _ => 10) (fun _ => {}) contacts [] net ∧
      net.backups = contacts := exists_start sound dotted old
  have again : Run Peers.greeters (fun _ => 10) (fun _ => {}) net.backups [] net := by rwa [kept]
  obtain ⟨-, meets⟩ := (reunites (fun _ => rfl) (fun _ => rfl) resolves dotted sound old run).2 net again
  obtain ⟨_, ping, pong, net', -, -, run', known, known'⟩ := meets false true
    (kept ▸ List.mem_singleton_self _) Peers.greeters_talk
  rw [kept] at run'
  exact ⟨_, contacts, _, net', rfl, run', known, known'⟩

end Run

end Network

end MiniDht
