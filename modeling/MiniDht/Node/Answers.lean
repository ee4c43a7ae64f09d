import MiniDht.Node.Attribution
import MiniDht.Node.FindNode

/-!
# Answers

A request is answered under its token, at the endpoint it came from. Only a
`SEND_FIND_VALUE` can be left without an answer: there is something under the recipient's
id, and nothing that is asked for under the id of the peer that asks.
-/

namespace MiniDht

open Lib

namespace Node

variable {w : World} {s : Node} {rs : RecordStore} {m : MessageProto} {epp : EndpointProto}

/-- `send_MESSAGE(m, epp)` is called, and the packet is delivered if the endpoint resolves
and the message fits. -/
def HandedTo (w : World) (es : List Event) (m : MessageProto) (epp : EndpointProto) : Prop :=
  .handed m epp ∈ es ∧
    ∀ uep, w.resolve epp = some uep → w.byteSize m ≤ maxBodyLength → .delivered m uep ∈ es

theorem handedTo_sendEvents {id : String} {b : Bucket} {c : ContactProto} {es : List Event}
    (other : m.toId ≠ id) (found : b.lookup m.toId = some c)
    (seen : ∀ e ∈ sendEvents w id b m, e ∈ es) : HandedTo w es m c.ep := by
  constructor
  · exact seen _ (handed_mem_sendEvents.mpr ⟨rfl, other, c, found, rfl⟩)
  · intro uep resolved fits
    exact seen _ (delivered_mem_sendEvents.mpr ⟨rfl, other, c, found, resolved, fits⟩)

/-- The types of message that answer a request. -/
def answers : MessageType → List MessageType
  | .sendPing => [.replyPing]
  | .sendStore => [.replyStore]
  | .sendFindNode => [.replyFindNode]
  | .sendFindValue => [.replyFindValue, .replyFindNode]
  | _ => []

/-- Among the events there is an answer to the request. -/
def Answered (w : World) (es : List Event) (m : MessageProto) (epp : EndpointProto) : Prop :=
  ∃ m', m'.type ∈ answers m.type ∧ m'.token = m.token ∧ HandedTo w es m' epp

/-! ## The replies -/

section Reply

variable {toId : String} {t : Token} {c : ContactProto} (named : s.contactList.Named)
include named

variable (nonzero : toId ≠ zeroId) (other : toId ≠ s.id) (found : s.contactList.lookup toId = some c)
include nonzero other found

theorem replyPing_hands : ∃ es, Act.exec (replyPing w toId t) s = (.ok (), s.logged es) ∧
    ∃ m', m'.type = .replyPing ∧ m'.token = t ∧ HandedTo w es m' c.ep :=
  ⟨_, exec_replyPing nonzero named, _, rfl, rfl,
    handedTo_sendEvents other found fun _ seen => seen⟩

theorem replyStore_hands (cbf : DataItemProto) :
    ∃ es, Act.exec (replyStore w toId t cbf) s = (.ok (), s.logged es) ∧
      ∃ m', m'.type = .replyStore ∧ m'.token = t ∧ HandedTo w es m' c.ep :=
  ⟨_, exec_replyStore nonzero named, _, rfl, rfl,
    handedTo_sendEvents other found fun _ seen => seen⟩

/-- `reply_FIND_NODE` has something to send, as the peer that asks is a contact itself. -/
theorem replyFindNode_hands : ∃ es, Act.exec (replyFindNode w toId t) s = (.ok (), s.logged es) ∧
    ∃ m', m'.type = .replyFindNode ∧ m'.token = t ∧ HandedTo w es m' c.ep := by
  obtain ⟨parts, chunks, run⟩ := exec_replyFindNode (w := w) (t := t)
    ⟨nonzero, other, found, named.lookup found⟩
  obtain ⟨-, e, member, -⟩ := Bucket.mem_of_lookup found
  have listed : e.2 ∈ parts.flatten := by
    rw [chunks.flatten]
    exact List.mem_map_of_mem member
  obtain ⟨part, there, -⟩ := List.mem_flatten.mp listed
  refine ⟨_, run, nodeReply s.id toId t part, rfl, rfl, handedTo_sendEvents other found ?_⟩
  intro event seen
  rw [sendEvents_found other found] at seen
  exact List.mem_flatMap.mpr ⟨_, List.mem_map_of_mem there, seen⟩

end Reply

/-! ## Requests -/

/-- The request is one that is answered: it asks for a value, and there is something under
the recipient's id, only if something that is asked for is under the id of its sender. -/
def Answerable (rs : RecordStore) (m : MessageProto) : Prop :=
  m.type = .sendFindValue → rs.under m.toId = [] ∨ ∃ r ∈ rs.under m.fromId, hasHint m.hint r.title = true

/-- Something that is asked for is found if it is the title of a record. -/
theorem found_eq_nil_iff {u : List Record} {found : List DataItemProto}
    (perm : found.Perm ((u ×ˢ u ×ˢ u).map RecordStore.mixed)) (asked : String → Bool) :
    (found.filter fun d => asked d.title) = [] ↔ ¬ ∃ r ∈ u, asked r.title = true := by
  rw [List.filter_eq_nil_iff]
  constructor
  · rintro none ⟨r, member, fits⟩
    have triple : RecordStore.mixed (r, r, r) ∈ found := perm.mem_iff.mpr (List.mem_map_of_mem
      (List.mem_product.mpr ⟨member, List.mem_product.mpr ⟨member, member⟩⟩))
    exact none _ triple fits
  · intro none d there fits
    obtain ⟨⟨a, b, c⟩, product, rfl⟩ := List.mem_map.mp (perm.mem_iff.mp there)
    exact none ⟨a, (List.mem_product.mp product).1, fits⟩

section Request

variable (named : s.contactList.Named) {c : ContactProto}
  (nonzero : m.fromId ≠ zeroId) (other : m.fromId ≠ s.id)
  (found : s.contactList.lookup m.fromId = some c)
include named nonzero other found

theorem handleSendStore_hands (sound : w.storage.Sound)
    (held : s.dbStorage.tables = rs.tables) (clean : Clean m.toId ∧ Clean m.dataItem.title)
    (room : 1 ≤ s.maxRecords) :
    ∃ es s', Act.exec (handleSendStore w m) s = (.ok (), s') ∧ s'.log = s.log ++ es ∧
      ∃ m', m'.type = .replyStore ∧ m'.token = m.token ∧ HandedTo w es m' c.ep := by
  let s₁ : Node := { s with ticks := s.ticks + 1 }
  have tick : Act.exec (updateTime w) s = (.ok (w.clock s.ticks), s₁) := exec_updateTime w s
  have here : s₁.holding rs s.dbStorage.calls = s₁ := holding_self held
  obtain ⟨ticks, rs', n', -, -, inserted⟩ := @exec_insertDb w s₁ rs s.dbStorage.calls _
    { m.dataItem with time := toUnsigned (toTimeT (w.clock s.ticks)) } sound clean (.inr room)
  rw [here] at inserted
  let s₂ : Node := ({ s₁ with ticks := ticks } : Node).holding rs' n'
  obtain ⟨es, run, hands⟩ := replyStore_hands (w := w) (s := s₂) (t := m.token) named nonzero other
    found { m.dataItem with time := toUnsigned (toTimeT (w.clock s.ticks)) }
  refine ⟨es, s₂.logged es, ?_, rfl, hands⟩
  rw [handleSendStore, Act.exec_bind_ok tick, Act.exec_bind_ok inserted, run]

/-- A request for a value is answered with the values, or with contacts if there is nothing
under the recipient's id, or not at all. -/
theorem handleSendFindValue_hands (sound : w.storage.Sound) (held : s.dbStorage.tables = rs.tables)
    (type : m.type = .sendFindValue) (clean : Clean m.toId ∧ Clean m.fromId) :
    ∃ es, (Act.exec (handleSendFindValue w m) s).2.log = s.log ++ es ∧
      (Answered w es m c.ep ↔ Answerable rs m) := by
  have counted := exec_onStorage (s := s) (RecordStore.exec_count (s := rs)
    (n := s.dbStorage.calls) sound clean.1)
  rw [holding_self held] at counted
  rw [handleSendFindValue, Act.exec_bind_ok counted]
  let s₁ := s.holding rs (s.dbStorage.calls + 1)
  by_cases bare : rs.under m.toId = []
  · have none : ¬ (rs.under m.toId).length ≠ 0 := by simp [bare]
    obtain ⟨es, run, m', reply, token, handed⟩ := replyFindNode_hands (w := w) (s := s₁)
      (t := m.token) named nonzero other found
    rw [if_neg none, run]
    refine ⟨es, rfl, iff_of_true ⟨m', ?_, token, handed⟩ fun _ => .inl bare⟩
    rw [reply, type]
    decide
  · have some : (rs.under m.toId).length ≠ 0 := by simpa using bare
    obtain ⟨items, perm, run⟩ := exec_replyFindValue (w := w) (s := s₁) sound rfl m.hint m.token
      clean.2 nonzero named
    have empty := found_eq_nil_iff perm (hasHint m.hint)
    have asks : Answerable rs m ↔ ∃ r ∈ rs.under m.fromId, hasHint m.hint r.title = true := by
      rw [Answerable, or_iff_right bare]
      exact ⟨fun asked => asked type, fun asked _ => asked⟩
    rw [if_pos some, run, asks]
    refine ⟨_, rfl, ?_⟩
    by_cases none : (items.filter fun d => hasHint m.hint d.title) = []
    · rw [if_pos none]
      refine iff_of_false ?_ (empty.mp none)
      rintro ⟨m', -, -, handed, -⟩
      cases handed
    · rw [if_neg none]
      refine iff_of_true ⟨valueReply s.id m.fromId m.token _, ?_, rfl,
        handedTo_sendEvents other found fun _ seen => seen⟩ (not_not.mp (empty.not.mp none))
      rw [type]
      exact List.mem_cons_self

end Request

/-- A peer that asks for contacts is sent the whole contact list, itself as last seen among
them. -/
theorem findNode_answered (keeping : Keeping w s) (named : epp.Named) (type : m.type = .sendFindNode)
    (sender : m.fromId ≠ zeroId) (other : m.fromId ≠ s.id) :
    ∃ b parts, s.contactList.addContact w.evalOrder w.pastEnd (w.clock s.ticks) m.fromId epp = .ok b ∧
      Chunks alpha (b.entries.map Prod.snd) parts ∧
      Act.exec (handleMessageFrom w m epp) s =
        (.ok (), { s with ticks := s.ticks + 1, contactList := b : Node }.logged
          (sendAll w epp (parts.map (nodeReply s.id m.fromId m.token)))) := by
  have request : m.type ∈ [.sendPing, .sendStore, .sendFindNode, .sendFindValue] := by simp [type]
  obtain ⟨b, contact, -, received⟩ := exec_request (w := w) keeping.reachable.sane named request
  have table := keeping.reachable.table
  have lookup := table.filed.lookup_added (table.localKey_eq ▸ other) contact
  obtain ⟨parts, chunks, run⟩ := exec_replyFindNode (w := w) (t := m.token)
    (s := { s with ticks := s.ticks + 1, contactList := b }) ⟨sender, other, lookup, named⟩
  refine ⟨b, parts, contact, chunks, ?_⟩
  rw [received, handleMessage, type]
  exact run

/-- **Answers.** A request is answered at the endpoint it came from if and only if it is
answerable. -/
theorem answered_iff (keeping : Keeping w s) (sound : w.storage.Sound) (room : 1 ≤ s.maxRecords)
    (named : epp.Named) (request : m.type ∈ [.sendPing, .sendStore, .sendFindNode, .sendFindValue])
    (store : m.type = .sendStore → Clean m.toId ∧ Clean m.dataItem.title)
    (find : m.type = .sendFindValue → Clean m.toId ∧ Clean m.fromId)
    (sender : m.fromId ≠ zeroId) (other : m.fromId ≠ s.id) :
    ∃ rs : RecordStore, s.dbStorage.tables = rs.tables ∧
      (Answered w (s.since (Act.exec (handleMessageFrom w m epp) s).2) m epp ↔ Answerable rs m) := by
  obtain ⟨rs, held, -⟩ := keeping.records sound
  obtain ⟨b, contact, sane, received⟩ :=
    exec_request (w := w) keeping.reachable.sane named request
  have table := keeping.reachable.table
  have lookup := table.filed.lookup_added (table.localKey_eq ▸ other) contact
  let s₁ : Node := { s with ticks := s.ticks + 1, contactList := b }
  -- all but a request for a value are answered
  have always {es : List Event} {s' : Node} {m' : MessageProto} (log : s'.log = s.log ++ es)
      (fits : m'.type ∈ answers m.type) (token : m'.token = m.token) (handed : HandedTo w es m' epp)
      (value : m.type ≠ .sendFindValue) : Answered w (s.since s') m epp ↔ Answerable rs m := by
    rw [since_of_log log]
    exact iff_of_true ⟨m', fits, token, handed⟩ fun asked => absurd asked value
  refine ⟨rs, held, ?_⟩
  rw [received, handleMessage]
  cases type : m.type with
  | sendPing =>
    obtain ⟨es, run, m', reply, token, handed⟩ := replyPing_hands (w := w) (s := s₁)
      (t := m.token) sane.named sender other lookup
    simp only []
    rw [handleSendPing, run]
    exact always rfl (by rw [reply, type]; decide) token handed (by simp [type])
  | sendStore =>
    obtain ⟨es, s', run, log, m', reply, token, handed⟩ := handleSendStore_hands (s := s₁)
      sane.named sender other lookup sound held (store type) room
    simp only []
    rw [run]
    exact always log (by rw [reply, type]; decide) token handed (by simp [type])
  | sendFindNode =>
    obtain ⟨es, run, m', reply, token, handed⟩ := replyFindNode_hands (w := w) (s := s₁)
      (t := m.token) sane.named sender other lookup
    simp only []
    rw [handleSendFindNode, run]
    exact always rfl (by rw [reply, type]; decide) token handed (by simp [type])
  | sendFindValue =>
    obtain ⟨es, log, answered⟩ := handleSendFindValue_hands (s := s₁) sane.named sender other lookup
      sound held type (find type)
    simp only []
    rw [since_of_log (s := s) log]
    exact answered
  | _ => simp [type] at request

/-- The theorem at a ping to a node that has just started. -/
theorem answered_iff_ping :
    let m : MessageProto := { type := .sendPing, fromId := peerA.key, token := 7 }
    ∃ (s : Node) (rs : RecordStore), s.dbStorage.tables = rs.tables ∧
      Answered asking (s.since (Act.exec (handleMessageFrom asking m peerA.ep) s).2) m peerA.ep := by
  intro m
  obtain ⟨s, keeping, own, holds, -⟩ := keeping_fresh (w := asking) Sqlite.inOrder_sound 1 1
  have other : m.fromId ≠ s.id := by
    rw [own]
    exact peer_ne_own
  obtain ⟨rs, held, answered⟩ := @answered_iff _ s m peerA.ep keeping
    Sqlite.inOrder_sound (by rw [holds.2]) (by decide) (by decide) (by simp [m]) (by simp [m])
    (by decide) other
  exact ⟨s, rs, held, answered.mpr (by simp [Answerable, m])⟩

/-- The item that is stored here is asked for, and there is no answer. -/
theorem unanswered : ∃ s, Keeping asking s ∧ 1 ≤ s.maxRecords ∧
    (itemRequest "0c").fromId ≠ zeroId ∧ (itemRequest "0c").fromId ≠ s.id ∧
    ¬ Answered asking (s.since
        (Act.exec (handleMessageFrom asking (itemRequest "0c") peerA.ep) s).2)
      (itemRequest "0c") peerA.ep := by
  have clean : Clean itemStore.toId ∧ Clean itemStore.dataItem.title := clean_peerStores (by decide)
  obtain ⟨s₀, s, rs, n, stored⟩ := exists_storedFirst (w := asking) Sqlite.inOrder_sound
    Sqlite.inOrder_sound asking_first rfl clean (by decide)
  have room : 1 ≤ s.maxRecords := by rw [stored.holds.2]
  have other : (itemRequest "0c").fromId ≠ s.id := by
    rw [stored.own]
    exact peer_ne_own
  obtain ⟨rs', held, answered⟩ := @answered_iff _ s _ peerA.ep
    (stored.keeping asking_first rfl clean) Sqlite.inOrder_sound room (by decide) (by decide)
    (fun store => by cases store) (fun _ => clean_itemRequest "0c") (by decide) other
  have records := RecordStore.records_of_tables (stored.holds.1.symm.trans held) ▸ stored.records
  refine ⟨s, stored.keeping asking_first rfl clean, room, by decide, other, answered.not.mpr ?_⟩
  intro answerable
  let r := Record.ofItem n itemStore.toId (arriving asking s₀ itemStore)
  rcases answerable rfl with bare | ⟨r', under, -⟩
  · have member : r ∈ rs'.records := records ▸ List.mem_singleton_self r
    exact List.filter_eq_nil_iff.mp bare r member (decide_eq_true rfl)
  · obtain ⟨member, same⟩ := RecordStore.mem_under.mp under
    rw [records, List.mem_singleton] at member
    rw [member] at same
    exact peer_ne_own same.symm

end Node

end MiniDht
