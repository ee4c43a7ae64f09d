import Mathlib.Data.Countable.Basic
import Mathlib.Data.Finset.Image
import Mathlib.Data.Fintype.Card
import Mathlib.Logic.Equiv.List
import MiniDht.Network.Exchange

/-!
# Where an item gets to

A node that stores an item asks the contacts closest to the key, until an answer brings nothing
new. If it knows the nodes around the key to begin with, and there are two others to ask, all
that an answer can bring is the node itself, and once only. So the second answer ends the
search, and the item gets to each node that is among those closest to the key (`delivers`).
-/

namespace MiniDht

open Lib

theorem distTo_injective (dest : BitVec keySize) : Function.Injective (distTo dest) := fun _ _ same =>
  (BitVec.xor_left_inj dest).mp (BitVec.eq_of_toNat_eq same)

namespace Peers

variable {ι : Type} (p : Peers ι)

/-- The id of a node as distances are reckoned with. -/
def place (j : ι) : BitVec keySize := stringToKey (p.id j)

/-- How far a node is from a key. -/
def far (k : String) (j : ι) : Nat := distTo (stringToKey k) (p.place j)

/-- Fewer than `BUCKET_SIZE` of these nodes are nearer to the key. -/
def Near (among : Finset ι) (k : String) (j : ι) : Prop :=
  (among.filter fun j' => p.far k j' < p.far k j).card < bucketSize

/-- The item is on its way to a node. -/
def OnTheWay (net : Network ι) (i : ι) (k : String) (b : DataItemProto) (j : ι) : Prop :=
  ∃ t about, (about = k ∨ about = p.id i) ∧
    .delivered (Node.storeMessage (p.id i) (p.id j) about b t) (p.listen j) ∈ (net.nodes i).log

variable {p}

theorem place_injective : Function.Injective p.place := fun _ _ same =>
  p.distinct (stringToKey_injective (canonical_keyToString _) (canonical_keyToString _) same)

theorem Near.mono {among less : Finset ι} {k : String} {j : ι} (near : p.Near among k j)
    (part : less ⊆ among) : p.Near less k j :=
  lt_of_le_of_lt (Finset.card_le_card (Finset.filter_subset_filter _ part)) near

theorem card_nearer (among : Finset ι) (k : String) (j : ι) :
    ((among.image p.place).filter fun a => distTo (stringToKey k) a < p.far k j).card =
      (among.filter fun j' => p.far k j' < p.far k j).card := by
  rw [Finset.filter_image, Finset.card_image_of_injective _ place_injective]
  rfl

theorem place_mem_iff {among : Finset ι} {k : String} {l : List (BitVec keySize)}
    (closest : Closest bucketSize (distTo (stringToKey k)) (among.image p.place) l) {j : ι} :
    p.place j ∈ l ↔ j ∈ among ∧ p.Near among k j := by
  rw [closest.mem_iff, Near, ← card_nearer, place_injective.mem_finset_image]
  rfl

/-! ## A search among nodes -/

section Seeks

variable {i : ι} {k : String} {b : DataItemProto} {q : Search} {lc : List ContactProto}
  {seen : Finset ι}

/-- A search that stores an item, and lists the closest of the nodes it has heard of. -/
structure Seeks (p : Peers ι) (k : String) (b : DataItemProto) (seen : Finset ι) (q : Search) :
    Prop where
  type : q.searchType = .store
  buffer : q.buffer = b
  destination : q.destination = k
  listed : ∀ c ∈ q.shortList, p.Genuine c.key c.ep
  closest : Closest bucketSize (distTo (stringToKey k)) (seen.image p.place) q.ids

theorem Seeks.asks (seeks : p.Seeks k b seen q) (cs : List ContactProto) :
    p.Seeks k b seen (q.asks cs) :=
  ⟨seeks.type, seeks.buffer, seeks.destination, seeks.listed, seeks.closest⟩

/-- A search that begins has heard of nobody. -/
theorem seeks_new (p : Peers ι) (i : ι) (k : String) (b : DataItemProto) :
    p.Seeks k b ∅ { Search.new (p.id i) k .store with buffer := b } where
  type := rfl
  buffer := rfl
  destination := rfl
  listed _ none := absurd none List.not_mem_nil
  closest := Closest.nil _ _

/-- What is listed does not change by hearing of nodes that are further off. -/
theorem Seeks.extend (seeks : p.Seeks k b seen q) {all : Finset ι} (part : seen ⊆ all)
    (near : ∀ j ∈ all, p.Near all k j → j ∈ seen) : p.Seeks k b all q where
  type := seeks.type
  buffer := seeks.buffer
  destination := seeks.destination
  listed := seeks.listed
  closest := by
    refine seeks.closest.extend (distTo_injective _) (Finset.image_subset_image part) ?_
    intro a member few
    obtain ⟨j, there, rfl⟩ := Finset.mem_image.mp member
    refine Finset.mem_image_of_mem _ (near j there ?_)
    rwa [Near, ← card_nearer]

theorem Seeks.begun (seeks : p.Seeks k b seen q) (some : seen.Nonempty) : q.shortList ≠ [] := by
  intro none
  have length := seeks.closest.length
  have positive := Finset.card_pos.mpr (some.image p.place)
  rw [Search.ids, none, List.map_nil, List.length_nil, bucketSize] at length
  omega

/-- The nodes listed are the nearest. -/
theorem Seeks.lists (seeks : p.Seeks k b seen q) {j : ι} (there : j ∈ seen) (near : p.Near seen k j) :
    ∃ c ∈ q.shortList, c.key = p.id j := by
  obtain ⟨c, member, same⟩ := List.mem_map.mp ((place_mem_iff seeks.closest).mpr ⟨there, near⟩)
  obtain ⟨j', key, -⟩ := seeks.listed c member
  obtain rfl : j' = j := place_injective (by rw [← same, nodeId, key, place])
  exact ⟨c, member, key⟩

variable [Fintype ι]

variable (p) in
/-- The nodes some contacts stand for. -/
def heard (lc : List ContactProto) : Finset ι := Finset.univ.filter fun j => p.id j ∈ Search.keys lc

theorem idSet_genuine (genuine : ∀ c ∈ lc, p.Genuine c.key c.ep) :
    idSet lc = (p.heard lc).image p.place := by
  ext a
  simp only [mem_idSet, Finset.mem_image, heard, Finset.mem_filter, Finset.mem_univ, true_and]
  constructor
  · rintro ⟨c, member, rfl⟩
    obtain ⟨j, key, -⟩ := genuine c member
    exact ⟨j, List.mem_map.mpr ⟨c, member, key⟩, by rw [place, nodeId, key]⟩
  · rintro ⟨j, named, rfl⟩
    obtain ⟨c, member, key⟩ := List.mem_map.mp named
    exact ⟨c, member, by rw [place, nodeId, key]⟩

/-- An answer with no news ends the search. -/
theorem Seeks.ends (seeks : p.Seeks k b seen q) (genuine : ∀ c ∈ lc, p.Genuine c.key c.ep)
    (begun : q.shortList ≠ []) (some : lc ≠ []) (known : p.heard lc ⊆ seen) : q.ends lc = true := by
  refine Search.ends_of_seen (by simp [seeks.type]) (seeks.destination.symm ▸ seeks.closest)
    begun some ?_
  rw [idSet_genuine genuine]
  exact Finset.image_subset_image known

variable [DecidableEq ι]

theorem Seeks.offer (seeks : p.Seeks k b seen q) (genuine : ∀ c ∈ lc, p.Genuine c.key c.ep) :
    p.Seeks k b (seen ∪ p.heard lc) (q.offer lc) where
  type := by rw [Search.offer_searchType, seeks.type]
  buffer := by rw [Search.offer_buffer, seeks.buffer]
  destination := by rw [Search.offer_destination, seeks.destination]
  listed := fun c member => (Search.mem_offer member).elim (seeks.listed c) (genuine c)
  closest := by
    rw [Finset.image_union, ← idSet_genuine genuine]
    have dest := seeks.destination
    have merged := Search.offer_closest (s := q) (dest.symm ▸ seeks.closest) lc
    rwa [dest] at merged

end Seeks

/-- The item has come to the records a node holds, under the node's id. -/
def Gains (p : Peers ι) (net net' : Network ι) (b : DataItemProto) (j : ι) : Prop :=
  ∃ rs rs' : RecordStore, (net.nodes j).dbStorage.tables = rs.tables ∧
    (net'.nodes j).dbStorage.tables = rs'.tables ∧ ∃ r ∈ rs'.records, r.pair = (p.id j, b.title) ∧
      (rs.Absent (p.id j) b.title → r.data = b.data ∧ r.ttl = toSigned b.ttl)

/-! ## Three nodes -/

/-- There are readers that no message is lost on. -/
theorem exists_reader : ∃ read : Nat → MessageProto, Function.Surjective read := by
  have chars : Countable Char :=
    Function.Injective.countable (f := Char.toNat) fun _ _ => Char.toNat_inj.mp
  have strings : Countable String :=
    Function.Injective.countable (f := String.toList) fun _ _ => String.toList_inj.mp
  have bytes : Countable UInt8 :=
    Function.Injective.countable (f := UInt8.toNat) fun _ _ => UInt8.toNat_inj.mp
  have words : Countable UInt32 :=
    Function.Injective.countable (f := UInt32.toNat) fun _ _ => UInt32.toNat_inj.mp
  have longs : Countable UInt64 :=
    Function.Injective.countable (f := UInt64.toNat) fun _ _ => UInt64.toNat_inj.mp
  have endpoints : Countable EndpointProto :=
    Function.Injective.countable (f := fun ep : EndpointProto => (ep.address, ep.port)) fun a b same => by
      cases a; cases b; simp_all
  have contacts : Countable ContactProto :=
    Function.Injective.countable (f := fun c : ContactProto => (c.key, c.ep, c.time)) fun a b same => by
      cases a; cases b; simp_all
  have items : Countable DataItemProto :=
    Function.Injective.countable (f := fun d : DataItemProto => (d.ttl, d.time, d.title, d.data))
      fun a b same => by
      cases a; cases b; simp_all
  have types : Countable MessageType :=
    Function.Injective.countable (f := MessageType.ctorIdx) fun a b same => by
      cases a <;> cases b <;> first | rfl | cases same
  have messages : Countable MessageProto :=
    Function.Injective.countable (f := fun m : MessageProto => (m.type, m.fromId, m.token, m.toId,
      m.queryId, m.checkVal, m.dataItem, m.hint, m.contactList, m.dataItemList)) fun a b same => by
      cases a; cases b; simp_all
  have some : Nonempty MessageProto := ⟨{}⟩
  exact exists_surjective_nat MessageProto

/-- Three nodes that read a packet by its length. -/
def trio (read : Nat → MessageProto) : Peers (Fin 3) where
  world _ := { World.simple [] with parse := fun body => (true, read body.length) }
  key i := BitVec.ofNat keySize (i + 1)
  listen i :=
    { address := match i with
        | 0 => "10.0.0.1"
        | 1 => "10.0.0.2"
        | 2 => "10.0.0.3"
      port := 4000
      printed := by revert i; decide }
  distinct := fun i j => by revert i j; decide
  apart := fun i j => by revert i j; decide

theorem trio_finds (read : Nat → MessageProto) (i j : Fin 3) :
    ((trio read).world i).resolve ((trio read).listen j).proto = some ((trio read).listen j) := by
  have found : ∀ j, (World.simple []).resolve ((trio fun _ => {}).listen j).proto =
      some ((trio fun _ => {}).listen j) := by decide
  exact found j

theorem trio_nonzero (read : Nat → MessageProto) (j : Fin 3) : (trio read).id j ≠ zeroId := by
  have other : ∀ j, (trio fun _ => {}).id j ≠ zeroId := by decide
  exact other j

theorem trio_transmits {read : Nat → MessageProto} (reads : Function.Surjective read) (i : Fin 3)
    (k : String) (b : DataItemProto) : (trio read).Transmits i k b where
  finds := trio_finds read
  fits _ _ _ := Nat.zero_le _
  reads j m _ := by
    obtain ⟨n, same⟩ := reads m
    exact ⟨List.replicate n 0, by simp [trio, same]⟩
  nonzero := trio_nonzero read

theorem trio_talk {read : Nat → MessageProto} (reads : Function.Surjective read) {i j : Fin 3}
    (apart : i ≠ j) (t : Token) : (trio read).CanTalk i j t := by
  have reader (m : MessageProto) : ∃ body : List UInt8, (true, read body.length) = (true, m) := by
    obtain ⟨n, same⟩ := reads m
    exact ⟨List.replicate n 0, by simp [same]⟩
  exact
    { apart := apart
      dials := trio_finds read i j
      answers := trio_finds read j i
      fits := Nat.zero_le _
      fits' := Nat.zero_le _
      reads := reader _
      reads' := reader _
      clock := fun _ _ _ => le_rfl
      nonzero := trio_nonzero read i }

end Peers

namespace Network

variable {ι : Type} {p : Peers ι} {i j : ι} {q : Search} {lc : List ContactProto} {t : Token}
  {k about : String} {b : DataItemProto} {net net' : Network ι} {seen : Finset ι}

/-- A round that does not end the search asks. -/
theorem Rounds.asks (round : Rounds p i q lc t k net net') (wires : p.Transmits i k b)
    (type : q.searchType = .store) (goes : ¬ q.ends lc = true) (apart : i ≠ j)
    (knows : p.Knows net i j) {c : ContactProto} (picked : c ∈ q.picks lc) (key : c.key = p.id j) :
    .delivered (Node.findNodeMessage (p.id i) (p.id j) k t) (p.listen j) ∈ (net'.nodes i).log := by
  have message : Node.roundMessage q lc (p.id i) k t (p.id j) =
      Node.findNodeMessage (p.id i) (p.id j) k t := by
    simp [Node.roundMessage, type, goes]
  have said : p.Said i k b (Node.roundMessage q lc (p.id i) k t (p.id j)) := message ▸ .ask j t
  exact message ▸ round.posts wires (wires.fits i _ said) apart knows picked key

/-- A round that ends the search sends the item to the nodes nearest to the key. -/
theorem Rounds.ends [Fintype ι] [DecidableEq ι] (round : Rounds p i q lc t about net net')
    (wires : p.Transmits i k b) (one : about = k ∨ about = p.id i)
    (seeks : p.Seeks k b seen (q.offer lc)) (all : Finset.univ.erase i ⊆ seen)
    (knows : ∀ j ≠ i, p.Near Finset.univ k j → p.Knows net i j) (ended : q.ends lc = true) :
    ∀ j ≠ i, p.Near Finset.univ k j → p.OnTheWay net' i k b j := by
  intro j other near
  have type : q.searchType = .store := (Search.offer_searchType q lc).symm.trans seeks.type
  have buffer : q.buffer = b := (Search.offer_buffer q lc).symm.trans seeks.buffer
  have there : j ∈ seen := all (Finset.mem_erase.mpr ⟨other, Finset.mem_univ j⟩)
  obtain ⟨c, listed, key⟩ := seeks.lists there (near.mono (Finset.subset_univ _))
  have picked : c ∈ q.picks lc := by rwa [Search.picks, if_pos ended, if_pos type]
  have message : Node.roundMessage q lc (p.id i) about t (p.id j) =
      Node.storeMessage (p.id i) (p.id j) about b t := by
    simp [Node.roundMessage, type, ended, buffer]
  have said : p.Said i k b (Node.roundMessage q lc (p.id i) about t (p.id j)) := message ▸ .item j t one
  exact ⟨t, about, one,
    message ▸ round.posts wires (wires.fits i _ said) other.symm (knows j other near) picked key⟩

/-- Node `i` has asked and was answered since. The others hold the records they held. -/
structure Talked (i : ι) (net net' : Network ι) : Prop where
  down : net'.down = net.down
  known : ∀ key, (net'.nodes i).contactList.lookup key = (net.nodes i).contactList.lookup key
  log : ∀ e ∈ (net.nodes i).log, e ∈ (net'.nodes i).log
  shelf : ∀ j ≠ i, (net'.nodes j).shelf = (net.nodes j).shelf

theorem Rounds.talked (round : Rounds p i q lc t about net net') : Talked i net net' :=
  ⟨round.down, round.known, round.log, fun j other => by rw [round.others j other]⟩

theorem Talked.trans {net'' : Network ι} (first : Talked i net net') (second : Talked i net' net'') :
    Talked i net net'' where
  down := second.down.trans first.down
  known key := (second.known key).trans (first.known key)
  log e old := second.log e (first.log e old)
  shelf j other := (second.shelf j other).trans (first.shelf j other)

theorem Talked.knows (talked : Talked i net net') (knows : p.Knows net i j) : p.Knows net' i j := by
  obtain ⟨c, found, at'⟩ := knows
  exact ⟨c, (talked.known _).trans found, at'⟩

namespace Run

variable [DecidableEq ι] {maxRecords : ι → Nat} {storage : ι → Tables} {contacts : ι → Contacts}
  {inputs : List (ι × Node.Input)}

/-- What is on its way arrives at one node after the other. -/
theorem files (run : Run p maxRecords storage contacts inputs net) (wires : p.Transmits i k b)
    (sound : ∀ j, (p.world j).storage.Sound) (title : Clean b.title) {js : List ι} (once : js.Nodup)
    (absent : i ∉ js) (ready : ∀ j ∈ js, j ∉ net.down ∧ 0 < (net.nodes j).maxRecords ∧
      (∃ rs : RecordStore, (net.nodes j).dbStorage.tables = rs.tables) ∧ p.OnTheWay net i k b j) :
    ∃ later net', Run p maxRecords storage contacts (inputs ++ later) net' ∧
      (∀ call ∈ later, (∃ ep body, call.2 = .receive ep body) ∧ call.2.Clean (p.world call.1)) ∧
      net'.down = net.down ∧
      (∀ j ∉ js, net'.nodes j = net.nodes j) ∧ ∀ j ∈ js, p.Gains net net' b j := by
  induction js generalizing inputs net with
  | nil => exact ⟨[], net, by rwa [List.append_nil], by simp, rfl, fun _ _ => rfl, by simp⟩
  | cons j js ih =>
    obtain ⟨fresh, once⟩ := List.nodup_cons.mp once
    obtain ⟨apart, absent⟩ := not_or.mp (mt List.mem_cons.mpr absent)
    obtain ⟨up, room, ⟨rs, held⟩, t, about, one, sent⟩ := ready j List.mem_cons_self
    obtain ⟨body, net₁, run₁, clean, down, others, rs', held', gained⟩ :=
      run.filed wires up (sound j) title held room one sent
    have same (j' : ι) (member : j' ∈ js) : net₁.nodes j' = net.nodes j' :=
      others j' fun here => fresh (here ▸ member)
    have kept : net₁.nodes i = net.nodes i := others i apart
    obtain ⟨later, net', run', arrivals, down', others', gains⟩ := ih run₁ once absent fun j' member => by
      rw [same j' member, down, Peers.OnTheWay, kept]
      exact ready j' (List.mem_cons_of_mem _ member)
    refine ⟨(j, .receive (p.listen i) body) :: later, net', ?_, ?_, down'.trans down, ?_, ?_⟩
    · rwa [List.append_assoc, List.singleton_append] at run'
    · intro call member
      rcases List.mem_cons.mp member with rfl | old
      · exact ⟨⟨_, _, rfl⟩, clean⟩
      · exact arrivals call old
    · intro j' outside
      obtain ⟨other, outside⟩ := not_or.mp (mt List.mem_cons.mpr outside)
      rw [others' j' outside, others j' other]
    · intro j' member
      rcases List.mem_cons.mp member with rfl | old
      · exact ⟨rs, rs', held, by rw [others' j' fresh, held'], gained⟩
      · have gain := gains j' old
        rwa [Peers.Gains, same j' old] at gain

section Around

variable [Fintype ι]

/-- The contacts a search starts with are those of the node. -/
theorem heard_proximity (resolves : p.Resolves) (run : Run p maxRecords storage contacts inputs net)
    (k : String) :
    j ∈ p.heard ((net.nodes i).contactList.proximity k) ↔
      ((net.nodes i).contactList.lookup (p.id j)).isSome := by
  have table := run.table resolves i
  have keys : (Search.keys ((net.nodes i).contactList.proximity k)).Perm
      ((net.nodes i).contactList.entries.map (·.2.key)) := by
    have perm := (table.proximity_perm k).map (·.key)
    rwa [List.map_map] at perm
  rw [Peers.heard, Finset.mem_filter, keys.mem_iff, table.filed.lookup_isSome]
  simp

/-- The first round of a search lists the nodes nearest to the key, if they are contacts. -/
theorem seeks_begun (resolves : p.Resolves) (run : Run p maxRecords storage contacts inputs net)
    (around : ∀ j ≠ i, p.Near (Finset.univ.erase i) k j → p.Knows net i j) :
    p.Seeks k b (Finset.univ.erase i) (Search.offer { Search.new (p.id i) k .store with buffer := b }
      ((net.nodes i).contactList.proximity k)) := by
  refine ((Peers.seeks_new p i k b).offer (run.proximity_genuine i k)).extend ?_ fun j there near => ?_
  · intro j there
    rw [Finset.empty_union, heard_proximity resolves run] at there
    obtain ⟨e, member, key⟩ := (run.table resolves i).filed.lookup_isSome.mp there
    refine Finset.mem_erase.mpr ⟨?_, Finset.mem_univ j⟩
    rintro rfl
    have other := (run.table resolves j).filed.others e member
    rw [(run.reachable.truthful j).table.localKey_eq] at other
    exact other key
  · obtain ⟨c, found, -⟩ := around j (Finset.ne_of_mem_erase there) near
    rw [Finset.empty_union, heard_proximity resolves run, found]
    rfl

/-- A round that goes on asks two nodes at least, where there are as many. -/
theorem asks_two (seeks : p.Seeks k b (Finset.univ.erase i) (q.offer lc)) (fresh : q.mapNodeBusy = ∅)
    (goes : ¬ q.ends lc = true) (crowd : 2 < Fintype.card ι) :
    ∃ a₁ a₂, a₁ ≠ a₂ ∧ ∀ a ∈ [a₁, a₂], a ≠ i ∧ p.Near (Finset.univ.erase i) k a ∧
      ∃ c ∈ q.picks lc, c.key = p.id a := by
  have length := seeks.closest.length
  rw [Finset.card_image_of_injective _ Peers.place_injective,
    Finset.card_erase_of_mem (Finset.mem_univ i), Finset.card_univ, Search.ids, List.length_map] at length
  obtain ⟨c₁, c₂, rest, listed⟩ : ∃ c₁ c₂ rest, (q.offer lc).shortList = c₁ :: c₂ :: rest := by
    have both : 1 < (q.offer lc).shortList.length := by
      rw [length, bucketSize]
      omega
    rcases short : (q.offer lc).shortList with _ | ⟨c₁, _ | ⟨c₂, rest⟩⟩
    · simp [short] at both
    · simp [short] at both
    · exact ⟨c₁, c₂, rest, rfl⟩
  have picks : q.picks lc = (c₁ :: c₂ :: rest).take alpha := by
    simp [Search.picks, goes, Search.unasked, Search.free, fresh, listed]
  have node (c : ContactProto) (member : c ∈ [c₁, c₂]) : ∃ a, c.key = p.id a ∧ a ≠ i ∧
      p.Near (Finset.univ.erase i) k a ∧ c ∈ q.picks lc := by
    have short : c ∈ (q.offer lc).shortList := by
      rw [listed]
      exact List.mem_append_left rest member
    obtain ⟨a, key, -⟩ := seeks.listed c short
    have place : p.place a ∈ (q.offer lc).ids := by
      rw [Peers.place, ← key]
      exact List.mem_map_of_mem short
    obtain ⟨there, near⟩ := (Peers.place_mem_iff seeks.closest).mp place
    refine ⟨a, key, Finset.ne_of_mem_erase there, near, ?_⟩
    rw [picks, alpha, List.take_succ_cons, List.take_succ_cons]
    exact List.mem_append_left _ member
  obtain ⟨a₁, key₁, other₁, near₁, picked₁⟩ := node c₁ (by simp)
  obtain ⟨a₂, key₂, other₂, near₂, picked₂⟩ := node c₂ (by simp)
  refine ⟨a₁, a₂, fun same => ?_, fun a member => ?_⟩
  · have once := seeks.closest.nodup
    rw [Search.ids, listed, List.map_cons, List.map_cons, nodeId, nodeId, key₁, key₂, same] at once
    exact (List.nodup_cons.mp once).1 List.mem_cons_self
  · rcases List.mem_cons.mp member with rfl | member
    · exact ⟨other₁, near₁, c₁, picked₁, key₁⟩
    · rw [List.mem_singleton.mp member]
      exact ⟨other₂, near₂, c₂, picked₂, key₂⟩

/-- A node that was asked answers. The search ends with the answer, or goes on. -/
theorem hears (run : Run p maxRecords storage contacts inputs net) (wires : p.Transmits i k b)
    (up : i ∉ net.down) (apart : i ≠ j) (up' : j ∉ net.down)
    (here : (net.nodes i).mapSearch t = some q) (seeks : p.Seeks k b seen q) (all : Finset.univ.erase i ⊆ seen)
    (knows : ∀ j ≠ i, p.Near Finset.univ k j → p.Knows net i j)
    (sent : .delivered (Node.findNodeMessage (p.id i) (p.id j) k t) (p.listen j) ∈ (net.nodes i).log) :
    ∃ later net' part, Run p maxRecords storage contacts (inputs ++ later) net' ∧
      (∀ call ∈ later, (∃ ep body, call.2 = .receive ep body) ∧ call.2.Clean (p.world call.1)) ∧
      Talked i net net' ∧ part ≠ [] ∧
      (∀ c ∈ part, p.Genuine c.key c.ep) ∧
      (net'.nodes i).mapSearch t = (if q.ends part then none else some (q.next part)) ∧
      (q.ends part = true → ∀ j ≠ i, p.Near Finset.univ k j → p.OnTheWay net' i k b j) := by
  obtain ⟨ask, net₁, part, run₁, cleanAsk, down₁, others₁, shelf₁, some, few, answer⟩ :=
    run.asked wires apart up' sent
  have kept : net₁.nodes i = net.nodes i := others₁ i apart
  have genuine := ((run₁.reachable.truthful j).sent _ answer).2
  have talked : Talked i net net₁ := by
    refine ⟨down₁, fun _ => by rw [kept], fun _ => by rw [kept]; exact id, fun j' other => ?_⟩
    by_cases same : j' = j
    · rw [same, shelf₁]
    · rw [others₁ j' same]
  obtain ⟨reply, net₂, run₂, cleanReply, round⟩ := run₁.told wires (down₁ ▸ up) (kept ▸ here) few answer
  refine ⟨[(j, .receive (p.listen i) ask), (i, .receive (p.listen j) reply)], net₂, part, ?_, ?_,
    talked.trans round.talked, some, genuine, round.search, ?_⟩
  · rwa [List.append_assoc] at run₂
  · simp [cleanAsk, cleanReply]
  · exact round.ends wires (.inr rfl) (seeks.offer genuine) (all.trans Finset.subset_union_left)
      (fun j' other near => talked.knows (knows j' other near))

/-- The search comes to its end, and the item is on its way to each node that is among those nearest
to the key. -/
theorem sends (run : Run p maxRecords storage contacts inputs net) (wires : p.Transmits i k b)
    (up : i ∉ net.down) (keyed : k ≠ zeroId) (crowd : 2 < Fintype.card ι)
    (around : ∀ j ≠ i, p.Near (Finset.univ.erase i) k j → p.Knows net i j ∧ j ∉ net.down) :
    ∃ later net', Run p maxRecords storage contacts (inputs ++ (i, .iterativeStore k b) :: later) net' ∧
      (∀ call ∈ later, (∃ ep body, call.2 = .receive ep body) ∧ call.2.Clean (p.world call.1)) ∧
      Talked i net net' ∧
      (net'.nodes i).mapSearch (Node.tokenAt (p.world i) (net.nodes i).draws) = none ∧
      ∀ j ≠ i, p.Near Finset.univ k j → p.OnTheWay net' i k b j := by
  have knows (j : ι) (other : j ≠ i) (near : p.Near Finset.univ k j) : p.Knows net i j :=
    (around j other (near.mono (Finset.subset_univ _))).1
  obtain ⟨net₁, run₁, round₁⟩ := run.begins wires up keyed
  generalize Node.tokenAt (p.world i) (net.nodes i).draws = t at round₁ ⊢
  have seeks₁ := seeks_begun (b := b) wires.resolves run fun j other near => (around j other near).1
  have fresh : ({ Search.new (p.id i) k .store with buffer := b } : Search).mapNodeBusy = ∅ := rfl
  generalize { Search.new (p.id i) k .store with buffer := b } = q at round₁ seeks₁ fresh
  generalize (net.nodes i).contactList.proximity k = lc at round₁ seeks₁
  have talked₁ := round₁.talked
  by_cases ended₁ : q.ends lc = true
  · have gone : (net₁.nodes i).mapSearch t = none := by rw [round₁.search, if_pos ended₁]
    exact ⟨[], net₁, run₁, by simp, talked₁, gone,
      round₁.ends wires (.inl rfl) seeks₁ subset_rfl knows ended₁⟩
  -- The search goes on, and asks two nodes at least.
  have type : q.searchType = .store := (Search.offer_searchType q lc).symm.trans seeks₁.type
  obtain ⟨a₁, a₂, apart, asked⟩ := asks_two seeks₁ fresh ended₁ crowd
  have sent (a : ι) (member : a ∈ [a₁, a₂]) : i ≠ a ∧ a ∉ net.down ∧
      .delivered (Node.findNodeMessage (p.id i) (p.id a) k t) (p.listen a) ∈ (net₁.nodes i).log := by
    obtain ⟨other, near, c, picked, key⟩ := asked a member
    obtain ⟨known, up'⟩ := around a other near
    exact ⟨other.symm, up', round₁.asks wires type ended₁ other.symm known picked key⟩
  obtain ⟨other₁, up₁, sent₁⟩ := sent a₁ (by simp)
  obtain ⟨other₂, up₂, sent₂⟩ := sent a₂ (by simp)
  have some₁ : a₁ ∈ Finset.univ.erase i := Finset.mem_erase.mpr ⟨other₁.symm, Finset.mem_univ _⟩
  have search₁ : (net₁.nodes i).mapSearch t = some (q.next lc) := by rw [round₁.search, if_neg ended₁]
  have seeks₂ : p.Seeks k b (Finset.univ.erase i) (q.next lc) := seeks₁.asks _
  obtain ⟨later₁, net₂, part₁, run₂, arrivals₁, since, news₁, genuine₁, left₁, onTheWay₁⟩ :=
    run₁.hears wires (talked₁.down ▸ up) other₁ (talked₁.down ▸ up₁) search₁ seeks₂ subset_rfl
      (fun j other near => talked₁.knows (knows j other near)) sent₁
  rw [List.append_assoc, List.singleton_append] at run₂
  have talked₂ := talked₁.trans since
  by_cases ended₂ : (q.next lc).ends part₁ = true
  · rw [if_pos ended₂] at left₁
    exact ⟨later₁, net₂, run₂, arrivals₁, talked₂, left₁, onTheWay₁ ended₂⟩
  -- The news was the node itself, so the second answer has none.
  rw [if_neg ended₂] at left₁
  have all : Finset.univ.erase i ∪ p.heard part₁ = Finset.univ := by
    by_contra more
    refine ended₂ (seeks₂.ends genuine₁ (seeks₂.begun ⟨a₁, some₁⟩) news₁ fun j heard => ?_)
    refine Finset.mem_erase.mpr ⟨?_, Finset.mem_univ j⟩
    rintro rfl
    refine more (Finset.eq_univ_of_forall fun j' => ?_)
    by_cases same : j' = j
    · exact Finset.mem_union_right _ (same ▸ heard)
    · exact Finset.mem_union_left _ (Finset.mem_erase.mpr ⟨same, Finset.mem_univ j'⟩)
  have seeks₃ : p.Seeks k b Finset.univ ((q.next lc).next part₁) := by
    have offered := seeks₂.offer genuine₁
    rw [all] at offered
    exact offered.asks _
  obtain ⟨later₂, net₃, part₂, run₃, arrivals₂, talked₃, news₂, genuine₂, left₂, onTheWay₂⟩ :=
    run₂.hears wires (talked₂.down ▸ up) other₂ (talked₂.down ▸ up₂) left₁ seeks₃
      (Finset.subset_univ _) (fun j other near => talked₂.knows (knows j other near)) (since.log _ sent₂)
  have ended₃ := seeks₃.ends genuine₂ (seeks₃.begun ⟨i, Finset.mem_univ i⟩) news₂ (Finset.subset_univ _)
  rw [if_pos ended₃] at left₂
  refine ⟨later₁ ++ later₂, net₃, ?_, fun call member => ?_, talked₂.trans talked₃, left₂,
    onTheWay₂ ended₃⟩
  · rwa [List.append_assoc, List.cons_append] at run₃
  · exact (List.mem_append.mp member).elim (arrivals₁ call) (arrivals₂ call)

/-- **Delivery.** Whatever state a network is in, when a client of a node that knows the nodes around
a key stores an item under it that fits into a packet, and there are two others at least, the search
can come to its end: it is erased, and the item gets to each other node that is among those nearest
to the key, and is kept there under that node's own id. -/
theorem delivers (run : Run p maxRecords storage contacts inputs net) (wires : p.Transmits i k b)
    (up : i ∉ net.down) (keyed : k ≠ zeroId) (crowd : 2 < Fintype.card ι)
    (around : ∀ j ≠ i, p.Near (Finset.univ.erase i) k j →
      p.Knows net i j ∧ j ∉ net.down ∧ 0 < (net.nodes j).maxRecords)
    (records : ∀ j, ∃ rs : RecordStore, storage j = rs.tables ∧ rs.CleanStrings)
    (clean : ∀ call ∈ inputs, call.2.Clean (p.world call.1))
    (sound : ∀ j, (p.world j).storage.Sound) (title : Clean b.title) :
    ∃ later net', Run p maxRecords storage contacts (inputs ++ (i, .iterativeStore k b) :: later) net' ∧
      (∀ call ∈ later, (∃ ep body, call.2 = .receive ep body) ∧ call.2.Clean (p.world call.1)) ∧
      net'.down = net.down ∧
      (net'.nodes i).mapSearch (Node.tokenAt (p.world i) (net.nodes i).draws) = none ∧
      ∀ j ≠ i, p.Near Finset.univ k j → p.Gains net net' b j := by
  classical
  obtain ⟨later₁, net₁, run₁, arrivals₁, talked, gone, onTheWay⟩ := run.sends wires up keyed crowd
    fun j other near => ⟨(around j other near).1, (around j other near).2.1⟩
  let js := (Finset.univ.filter fun j => j ≠ i ∧ p.Near Finset.univ k j).toList
  have mem_js (j : ι) : j ∈ js ↔ j ≠ i ∧ p.Near Finset.univ k j := by simp [js]
  have shelf (j : ι) (member : j ∈ js) : (net₁.nodes j).dbStorage = (net.nodes j).dbStorage ∧
      (net₁.nodes j).maxRecords = (net.nodes j).maxRecords :=
    Prod.mk.inj (talked.shelf j ((mem_js j).mp member).1)
  have ready (j : ι) (member : j ∈ js) : j ∉ net₁.down ∧ 0 < (net₁.nodes j).maxRecords ∧
      (∃ rs : RecordStore, (net₁.nodes j).dbStorage.tables = rs.tables) ∧
      p.OnTheWay net₁ i k b j := by
    obtain ⟨other, near⟩ := (mem_js j).mp member
    obtain ⟨-, up', room⟩ := around j other (near.mono (Finset.subset_univ _))
    obtain ⟨rs, held, -⟩ := (run.keeping records clean up').records (sound j)
    obtain ⟨same, limit⟩ := shelf j member
    exact ⟨talked.down ▸ up', limit ▸ room, ⟨rs, by rw [same, held]⟩, onTheWay j other near⟩
  have absent : i ∉ js := fun here => ((mem_js i).mp here).1 rfl
  obtain ⟨later₂, net₂, run₂, arrivals₂, down, others, gains⟩ :=
    run₁.files wires sound title (Finset.nodup_toList _) absent ready
  refine ⟨later₁ ++ later₂, net₂, ?_, fun call member => ?_, down.trans talked.down, ?_,
    fun j other near => ?_⟩
  · rwa [List.append_assoc, List.cons_append] at run₂
  · exact (List.mem_append.mp member).elim (arrivals₁ call) (arrivals₂ call)
  · rw [others i absent, gone]
  · have member := (mem_js j).mpr ⟨other, near⟩
    have gain := gains j member
    rwa [Peers.Gains, (shelf j member).1] at gain

/-- In a small network no contact list is full. -/
theorem few_contacts (run : Run p maxRecords storage contacts inputs net)
    (small : Fintype.card ι ≤ bucketSize) (i : ι) :
    (net.nodes i).contactList.entries.length < bucketSize := by
  have truthful := run.reachable.truthful i
  have inside : ((net.nodes i).contactList.entries.map (·.2.key)).toFinset ⊆
      (Finset.univ.erase i).image p.id := by
    intro key listed
    obtain ⟨e, member, rfl⟩ := List.mem_map.mp (List.mem_toFinset.mp listed)
    obtain ⟨j, key, -⟩ := truthful.contacts e member
    refine Finset.mem_image.mpr ⟨j, Finset.mem_erase.mpr ⟨?_, Finset.mem_univ j⟩, key.symm⟩
    rintro rfl
    have other := truthful.table.filed.others e member
    rw [truthful.table.localKey_eq] at other
    exact other key
  have fewer := Finset.card_le_card inside
  rw [List.toFinset_card_of_nodup truthful.table.filed.distinct, List.length_map] at fewer
  have others := fewer.trans Finset.card_image_le
  rw [Finset.card_erase_of_mem (Finset.mem_univ i), Finset.card_univ] at others
  have positive : 0 < Fintype.card ι := Fintype.card_pos_iff.mpr ⟨i⟩
  omega

/-- In a small network the first round of a search for a value asks every contact. -/
theorem picks_contact (resolves : p.Resolves) (run : Run p maxRecords storage contacts inputs net)
    (small : Fintype.card ι ≤ alpha) (knows : p.Knows net i j) (value : q.searchType = .value)
    (blank : q.shortList = []) (fresh : q.mapNodeBusy = ∅) (dest : q.destination = k) :
    ∃ c ∈ q.picks ((net.nodes i).contactList.proximity k), c.key = p.id j := by
  subst dest
  have genuine := run.proximity_genuine i q.destination
  have known : j ∈ p.heard ((net.nodes i).contactList.proximity q.destination) := by
    obtain ⟨c, found, -⟩ := knows
    rw [heard_proximity resolves run, found]
    rfl
  generalize (net.nodes i).contactList.proximity q.destination = lc at genuine known
  have closest : Closest bucketSize (distTo (stringToKey q.destination)) ((p.heard lc).image p.place)
      (q.offer lc).ids := by
    have nobody : Closest bucketSize (distTo (stringToKey q.destination)) ∅ q.ids := by
      rw [Search.ids, blank]
      exact Closest.nil _ _
    have merged := Search.offer_closest nobody lc
    rwa [Finset.empty_union, Peers.idSet_genuine genuine] at merged
  have few : (q.offer lc).shortList.length ≤ alpha := by
    have length := closest.length
    rw [Search.ids, List.length_map] at length
    rw [length]
    exact (min_le_right _ _).trans (Finset.card_image_le.trans ((Finset.card_le_univ _).trans small))
  have near : p.Near (p.heard lc) q.destination j :=
    (Finset.card_le_univ _).trans_lt (small.trans_lt (by decide))
  obtain ⟨c, member, place⟩ := List.mem_map.mp ((Peers.place_mem_iff closest).mpr ⟨known, near⟩)
  have picks : q.picks lc = (q.offer lc).shortList := by
    simp [Search.picks, Search.ends_value value, Search.unasked, Search.free, fresh,
      List.take_of_length_le few]
  obtain ⟨j', key, -⟩ : p.Genuine c.key c.ep := by
    refine (Search.mem_offer member).elim (fun old => ?_) (genuine c)
    rw [blank] at old
    cases old
  obtain rfl : j' = j := Peers.place_injective (by rw [← place, nodeId, key, Peers.place])
  exact ⟨c, picks ▸ member, key⟩

end Around

/-- The first of three nodes has met the others. -/
theorem trio_met {read : Nat → MessageProto} (reads : Function.Surjective read) :
    ∃ inputs net, Run (.trio read) (fun _ => 10) (fun _ => {}) (fun _ => []) inputs net ∧
      (∀ call ∈ inputs, call.2.Clean ((Peers.trio read).world call.1)) ∧ net.down = ∅ ∧
      ∀ j ≠ 0, (Peers.trio read).Knows net 0 j ∧ (net.nodes j).maxRecords = 10 := by
  let fresh (i : Fin 3) : Node :=
    { Node.initial ((Peers.trio read).key i) 10 {} [] with dbBackup := { tables := [], calls := 1 } }
  have start : Run (.trio read) (fun _ => 10) (fun _ => {}) (fun _ => []) [] ⟨fresh, ∅⟩ :=
    .start (fun _ => .ok ())
      (fun i => Node.exec_restoreFromBackup_empty Sqlite.inOrder_sound _ 10 {}) (by simp)
  obtain ⟨ping₁, pong₁, net₁, asks₁, answers₁, run₁, down₁, known₁, -, shelf₁, -⟩ :=
    start.exchange (Peers.trio_talk reads (by decide : (0 : Fin 3) ≠ 1) 0) (by simp) (by simp)
  have few : (net₁.nodes 0).contactList.entries.length < bucketSize := run₁.few_contacts (by decide) 0
  obtain ⟨ping₂, pong₂, net₂, asks₂, answers₂, run₂, down₂, known₂, -, shelf₂, keeps⟩ :=
    run₁.exchange (Peers.trio_talk reads (by decide : (0 : Fin 3) ≠ 2) 0) (by simp [down₁])
      (by simp [down₁])
  refine ⟨_, net₂, run₂, fun call member => ?_, by rw [down₂, down₁], fun j other => ⟨?_, ?_⟩⟩
  · simp only [List.nil_append, List.cons_append, List.mem_cons, List.not_mem_nil, or_false] at member
    rcases member with rfl | rfl | rfl | rfl | rfl | rfl
    · trivial
    · exact Peers.hello_clean asks₁ _
    · exact Peers.welcome_clean answers₁ _
    · trivial
    · exact Peers.hello_clean asks₂ _
    · exact Peers.welcome_clean answers₂ _
  · match j with
    | 0 => exact absurd rfl other
    | 1 => exact keeps few 1 known₁
    | 2 => exact known₂
  · exact congrArg Prod.snd ((shelf₂ j other).trans (shelf₁ j other))

theorem trio_near (read : Nat → MessageProto) (k : String) (j : Fin 3) :
    (Peers.trio read).Near Finset.univ k j :=
  (Finset.card_le_univ _).trans_lt (by decide)

/-- The first node has stored an item, and the second keeps it. -/
theorem trio_stored {read : Nat → MessageProto} (reads : Function.Surjective read)
    (title : Clean b.title) :
    ∃ inputs net, Run (.trio read) (fun _ => 10) (fun _ => {}) (fun _ => []) inputs net ∧
      (∀ call ∈ inputs, call.2.Clean ((Peers.trio read).world call.1)) ∧
      (0, .iterativeStore "0c" b) ∈ inputs ∧ (∀ j, j ∉ net.down) ∧ (Peers.trio read).Knows net 0 1 ∧
      ∃ rs : RecordStore, (net.nodes 1).dbStorage.tables = rs.tables ∧
        ∃ r ∈ rs.records, r.pair = ((Peers.trio read).id 1, b.title) := by
  obtain ⟨inputs, net, run, clean, down, met⟩ := trio_met reads
  have wires := Peers.trio_transmits reads 0 "0c" b
  have known (j : Fin 3) (other : j ≠ 0) : (Peers.trio read).Knows net 0 j := (met j other).1
  obtain ⟨later, net₁, run₁, arrivals, talked, -, onTheWay⟩ := run.sends wires (by simp [down])
    (by decide) (by decide) fun j other _ => ⟨known j other, by simp [down]⟩
  have clean₁ : ∀ call ∈ inputs ++ (0, .iterativeStore "0c" b) :: later,
      call.2.Clean ((Peers.trio read).world call.1) := by
    intro call member
    rcases List.mem_append.mp member with old | new
    · exact clean call old
    · rcases List.mem_cons.mp new with rfl | arrival
      · trivial
      · exact (arrivals call arrival).2
  have up (j : Fin 3) : j ∉ net₁.down := by simp [talked.down, down]
  have room : (net₁.nodes 1).maxRecords = 10 :=
    (congrArg Prod.snd (talked.shelf 1 (by decide))).trans (met 1 (by decide)).2
  obtain ⟨rs, held, -⟩ := (run₁.keeping (fun _ => ⟨.empty, rfl, fun r none => by cases none⟩) clean₁
    (up 1)).records Sqlite.inOrder_sound
  obtain ⟨t, about, one, sent⟩ := onTheWay 1 (by decide) (trio_near read _ _)
  obtain ⟨body, net₂, run₂, packet, down₂, others, rs', held', r, member, pair, -⟩ :=
    run₁.filed wires (up 1) Sqlite.inOrder_sound title held (by simp [room]) one sent
  refine ⟨_, net₂, run₂, List.forall_mem_append.mpr ⟨clean₁, List.forall_mem_singleton.mpr packet⟩,
    by simp, fun j => down₂ ▸ up j, ?_, rs', held', r, member, pair⟩
  have still := talked.knows (known 1 (by decide))
  rwa [Peers.Knows, ← others 0 (by decide)] at still

/-- The theorem for three nodes, one of which has met the others. -/
theorem delivers_trio : ∃ (p : Peers (Fin 3)) (inputs later : List (Fin 3 × Node.Input))
    (k : String) (b : DataItemProto) (net net' : Network (Fin 3)),
    Run p (fun _ => 10) (fun _ => {}) (fun _ => []) inputs net ∧
      Run p (fun _ => 10) (fun _ => {}) (fun _ => [])
        (inputs ++ (0, .iterativeStore k b) :: later) net' ∧
      (net'.nodes 0).mapSearch (Node.tokenAt (p.world 0) (net.nodes 0).draws) = none ∧
      ∀ j ≠ 0, p.Gains net net' b j := by
  obtain ⟨read, reads⟩ := Peers.exists_reader
  obtain ⟨inputs, net, run, clean, down, met⟩ := trio_met reads
  let b : DataItemProto := { title := "a", data := [1] }
  obtain ⟨later, net', run', -, -, gone, gains⟩ := run.delivers (b := b) (k := "0c")
    (Peers.trio_transmits reads 0 _ _) (by simp [down]) (by decide) (by decide)
    (fun j other _ => ⟨(met j other).1, by simp [down], by rw [(met j other).2]; decide⟩)
    (fun _ => ⟨.empty, rfl, fun r none => by cases none⟩) clean (fun _ => Sqlite.inOrder_sound)
    (by decide)
  exact ⟨_, inputs, later, _, _, net, net', run, run', gone,
    fun j other => gains j other (trio_near read _ j)⟩

end Run

end Network

end MiniDht
