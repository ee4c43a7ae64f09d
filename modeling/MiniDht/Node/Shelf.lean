import MiniDht.Node.Crash

/-!
# What inputs do to the records

Two kinds of input write to the storage: a `SEND_STORE`, through `insert_db`, and the
clean-up of a header whose time is up. All others leave the records alone. So a node that
starts on records, and is handed clean strings only, holds records for ever (`Keeping`).
-/

namespace MiniDht

open Lib

namespace Node

variable {w : World} {s s' : Node} {rs : RecordStore} {max : Nat} {m : MessageProto}
  {I : Node → Prop} {sent : MessageProto → Prop} {out : Except Fault Unit}

/-- The node holds these records, and may hold `max`. -/
def Holds (rs : RecordStore) (max : Nat) (s : Node) : Prop :=
  s.dbStorage.tables = rs.tables ∧ s.maxRecords = max

theorem holds_allows : Allows w (Holds rs max) (fun _ => True) (fun _ _ => True) where
  toNotes := .of_book (fun _ _ _ _ _ h => h) (fun _ _ h _ => h) fun _ _ _ _ _ => trivial
  backup _ _ h := h
  search _ _ _ h _ := h
  done _ _ h := h
  held _ _ _ _ _ _ _ := trivial
  add _ _ _ _ _ _ _ h _ _ := h
  drop _ _ h := h
  look _ _ h := h
  listed _ _ _ _ := trivial

/-! ## Reading -/

/-- The invariant stands calls on the storage that leave these records as they are. -/
def Reads (rs : RecordStore) (I : Node → Prop) : Prop :=
  ∀ {α : Type} (x : DbM Tables α), (∀ n, (Act.exec x ⟨rs.tables, n⟩).2.tables = rs.tables) →
    Act.Keeps I (onStorage x)

theorem reads_holds : Reads rs (Holds rs max) := fun _ same =>
  .zoom fun s h => ⟨by rw [← same s.dbStorage.calls, ← h.1], h.2⟩

/-- The endpoint of the last sender may be held fixed besides. -/
theorem reads_holds_from {ep : Endpoint} :
    Reads rs (fun s => Holds rs max s ∧ s.senderEndpoint = ep) := fun _ same =>
  .zoom fun s h => ⟨⟨by rw [← same s.dbStorage.calls, ← h.1.1], h.1.2⟩, h.2⟩

section Reads

variable (reads : Reads rs I) (sound : w.storage.Sound)
include reads sound

theorem Reads.count {key : String} (clean : Clean key) :
    Act.Keeps I (onStorage (DbMultiKeyData.count w.storage key)) :=
  reads _ fun n => by rw [RecordStore.exec_count sound clean]

theorem Reads.find {key : String} (clean : Clean key) :
    Act.Keeps I (onStorage (DbMultiKeyData.find w.storage key)) := by
  refine reads _ fun n => ?_
  obtain ⟨_, -, run⟩ := RecordStore.exec_find (s := rs) (n := n) sound clean
  rw [run]

theorem Reads.listHeaders : Act.Keeps I (onStorage (DbMultiKeyData.listHeaders w.storage)) := by
  refine reads _ fun n => ?_
  obtain ⟨_, -, run⟩ := RecordStore.exec_listHeaders (s := rs) (n := n) sound
  rw [run]

theorem Reads.findTitle {key title : String} (clean : Clean key ∧ Clean title)
    (item : DataItemProto) :
    Act.Keeps I (onStorage (DbMultiKeyData.findTitle w.storage key title item)) := by
  refine reads _ fun n => ?_
  by_cases absent : rs.Absent key title
  · rw [RecordStore.exec_findTitle_absent sound clean item absent]
  · simp only [RecordStore.Absent, not_forall, not_not] at absent
    obtain ⟨r, member, pair⟩ := absent
    rw [RecordStore.exec_findTitle sound clean item member pair]

/-- A request for a value only looks. -/
theorem Reads.handleSendFindValue (rule : Carries I sent) (clean : Clean m.toId ∧ Clean m.fromId) :
    Act.Keeps I (Node.handleSendFindValue w m) := by
  refine .bind (reads.count sound clean.1) fun _ => .ite ?_ rule.replyFindNode
  refine Carries.checked <| .get_bind fun s h =>
    Act.Keeps.bind (reads.find sound clean.2) (fun ld => ?_) s h
  have fit (items : List DataItemProto) : sent
      { type := .replyFindValue, fromId := s.id, token := m.token, toId := m.fromId,
        dataItemList := items } :=
    rule.own s _ h rfl (List.nil_subset _) (show MessageType.replyFindValue ≠ .sendPing by decide)
  exact .ite (rule.sendMessage (fit _)) (.pure _)

end Reads

/-! ## Writing -/

/-- The item stored for a `SEND_STORE` that arrives: its sender is noted as a contact, which
reads the clock once, and then the item gets the time it is handled at. -/
def arriving (w : World) (s : Node) (m : MessageProto) : DataItemProto :=
  stamped w { s with ticks := s.ticks + 1 } m

/-- The node on its way through a request from `k` at `ep`: its sender has become a contact. -/
structure Greeted (w : World) (s : Node) (k : String) (ep : Endpoint) (s₁ : Node) : Prop where
  sane : s₁.Sane
  id : s₁.id = s.id
  ticks : s.ticks + 2 ≤ s₁.ticks
  contact : s.contactList.addContact w.evalOrder w.pastEnd (w.clock s.ticks) k ep.proto =
    .ok s₁.contactList

/-- A request makes its sender a contact, and is then handled. -/
theorem exec_request (sane : s.Sane) {epp : EndpointProto} (named : epp.Named)
    (request : m.type ∈ [.sendPing, .sendStore, .sendFindNode, .sendFindValue]) :
    ∃ b, s.contactList.addContact w.evalOrder w.pastEnd (w.clock s.ticks) m.fromId epp = .ok b ∧
      ({ s with ticks := s.ticks + 1, contactList := b } : Node).Sane ∧
      Act.exec (handleMessageFrom w m epp) s =
        Act.exec (handleMessage w m) { s with ticks := s.ticks + 1, contactList := b } := by
  obtain ⟨b, contact, added, kept⟩ := exec_addContact (w := w) (k := m.fromId) sane named
  refine ⟨b, contact, kept, ?_⟩
  have greets : handleMessageFrom w m epp = (do
      addContact w m.fromId epp
      handleMessage w m) := by
    rw [handleMessageFrom]
    cases type : m.type <;> rw [type] at request <;> first | rfl | simp at request
  rw [greets, Act.exec_bind_ok added]

/-- A packet with a request is handled as one from the endpoint it came from. -/
theorem exec_receive_request (sane : s.Sane) (ep : Endpoint) {body : List UInt8}
    (parsed : (w.parse body).2 = m)
    (request : m.type ∈ [.sendPing, .sendStore, .sendFindNode, .sendFindValue]) :
    ∃ b, s.contactList.addContact w.evalOrder w.pastEnd (w.clock s.ticks) m.fromId ep.proto = .ok b ∧
      ({ s with senderEndpoint := ep, ticks := s.ticks + 1, contactList := b } : Node).Sane ∧
      Act.exec (handleReceive w ep body) s =
        Act.exec (Act.rethrowAs localEndpointError (handleMessage w m))
          { s with senderEndpoint := ep, ticks := s.ticks + 1, contactList := b } := by
  have sane' : ({ s with senderEndpoint := ep } : Node).Sane := sane.congr rfl
  obtain ⟨b, contact, kept, handled⟩ := exec_request (w := w) (m := m) sane' ep.proto_named request
  refine ⟨b, contact, kept, ?_⟩
  rw [exec_handleReceive, parsed, Act.exec_rethrowAs, Act.exec_rethrowAs, handled]

/-- A `SEND_STORE` makes its sender a contact, reads the clock, stores and replies. -/
theorem exec_receive_store (sane : s.Sane) (ep : Endpoint) {body : List UInt8}
    (parsed : (w.parse body).2 = m) (type : m.type = .sendStore) :
    ∃ s₁, Greeted w s m.fromId ep s₁ ∧ shelf s₁ = shelf s ∧
      Act.exec (handleReceive w ep body) s =
        Act.exec (Act.rethrowAs localEndpointError do
          insertDb w m.toId (arriving w s m)
          replyStore w m.fromId m.token (arriving w s m)) s₁ := by
  obtain ⟨b, contact, kept, received⟩ := exec_receive_request (w := w) sane ep parsed (by simp [type])
  have tick := exec_updateTime w
    { s with senderEndpoint := ep, ticks := s.ticks + 1, contactList := b }
  refine ⟨{ s with senderEndpoint := ep, ticks := s.ticks + 2, contactList := b },
    ⟨kept.congr rfl, rfl, le_refl _, contact⟩, rfl, ?_⟩
  rw [received, Act.exec_rethrowAs, Act.exec_rethrowAs, handleMessage, type]
  simp only []
  rw [handleSendStore, Act.exec_bind_ok tick]
  rfl

section Store

variable (sane : s.Sane) (sound : w.storage.Sound) (held : s.dbStorage.tables = rs.tables)
  {ep : Endpoint} {body : List UInt8} (parsed : (w.parse body).2 = m)
  (type : m.type = .sendStore) (clean : Clean m.toId ∧ Clean m.dataItem.title)
include sane sound held parsed type clean

variable (ep) in
/-- Where there is room, the item is filed before the reply goes out. -/
theorem exec_receive_filed (room : rs.under m.toId ≠ [] ∨ 0 < s.maxRecords) :
    ∃ rs' s₂, rs.Filed s.maxRecords (Renews w ⟨rs.tables, s.dbStorage.calls⟩ m.toId (arriving w s m))
        m.toId (arriving w s m) rs' ∧ Greeted w s m.fromId ep s₂ ∧ Holds rs' s.maxRecords s₂ ∧
      Act.exec (handleReceive w ep body) s =
        Act.exec (Act.rethrowAs localEndpointError
          (replyStore w m.fromId m.token (arriving w s m))) s₂ := by
  obtain ⟨s₁, greeted, shelf, received⟩ := exec_receive_store sane ep parsed type
  obtain ⟨storage, limit⟩ := Prod.mk.inj shelf
  rw [← storage] at held ⊢
  rw [← limit] at room ⊢
  obtain ⟨ticks, rs', n', later, filed, inserted⟩ := exec_insertDb (w := w) (s := s₁)
    (n := s₁.dbStorage.calls) (d := arriving w s m) sound clean room
  refine ⟨rs', ({ s₁ with ticks := ticks } : Node).holding rs' n', filed,
    ⟨greeted.sane.congr rfl, greeted.id, greeted.ticks.trans later, greeted.contact⟩, ⟨rfl, rfl⟩, ?_⟩
  rw [holding_self held] at inserted
  rw [received, Act.exec_rethrowAs, Act.exec_bind_ok inserted, Act.exec_rethrowAs]

/-- A `SEND_STORE` that the process survives found room. -/
theorem room_of_survives (run : Act.exec (handleReceive w ep body) s = (out, s'))
    (survives : Survives out) : rs.under m.toId ≠ [] ∨ 0 < s.maxRecords := by
  obtain ⟨s₁, -, shelf, received⟩ := exec_receive_store sane ep parsed type
  obtain ⟨storage, limit⟩ := Prod.mk.inj shelf
  rw [← storage] at held
  rw [← limit]
  by_contra stuck
  obtain ⟨bare, none⟩ := not_or.mp stuck
  have hang := exec_insertDb_hang (w := w) (s := s₁) (n := s₁.dbStorage.calls)
    (d := arriving w s m) sound clean.1 (not_not.mp bare) (Nat.eq_zero_of_not_pos none)
  rw [holding_self held] at hang
  have ended := Act.exec_bind_error (f := fun _ => replyStore w m.fromId m.token (arriving w s m))
    (Prod.ext hang rfl)
  rw [run] at received
  obtain rfl : out = _ := congrArg Prod.fst received
  rw [Act.survives_rethrowAs, ended] at survives
  exact survives

/-- What a `SEND_STORE` that the process survives makes of the records. -/
theorem receive_store (run : Act.exec (handleReceive w ep body) s = (out, s'))
    (survives : Survives out) :
    ∃ rs', rs.Filed s.maxRecords (Renews w ⟨rs.tables, s.dbStorage.calls⟩ m.toId (arriving w s m))
        m.toId (arriving w s m) rs' ∧ Holds rs' s.maxRecords s' := by
  have room := room_of_survives sane sound held parsed type clean run survives
  obtain ⟨rs', s₂, filed, -, after, received⟩ :=
    exec_receive_filed sane sound held ep parsed type clean room
  rw [run] at received
  obtain rfl : s' = _ := congrArg Prod.snd received
  rw [Act.exec_rethrowAs_state]
  exact ⟨rs', filed, (holds_allows (w := w)).toCarries.replyStore _ after⟩

variable (ep) in
/-- Where there is room, it is handled to its end if its sender is not the zero id. -/
theorem receive_store_returns (room : rs.under m.toId ≠ [] ∨ 0 < s.maxRecords)
    (sender : m.fromId ≠ zeroId) : ∃ s', Act.exec (handleReceive w ep body) s = (.ok (), s') := by
  obtain ⟨rs', s₂, -, greeted, -, received⟩ :=
    exec_receive_filed sane sound held ep parsed type clean room
  rw [received]
  exact ⟨_, Act.exec_rethrowAs_ok.mpr (exec_replyStore sender greeted.sane.named)⟩

end Store

/-- A header whose time is up is dropped. -/
theorem exec_cleanHeader_expired (sound : w.storage.Sound) (held : s.dbStorage.tables = rs.tables)
    {checkTime : Ptime} {h : DataItemHeader} (clean : Clean h.key ∧ Clean h.title)
    (late : seconds h.ttl < checkTime - fromTimeT h.time) :
    Act.exec (cleanHeader w checkTime h) s =
      (.ok (), s.holding (rs.remove h.key h.title) (s.dbStorage.calls + 1)) := by
  have removed := exec_onStorage (s := s) (RecordStore.exec_remove (s := rs)
    (n := s.dbStorage.calls) sound clean)
  rw [holding_self held] at removed
  rw [cleanHeader, Act.exec_rethrowAs_ok]
  simp only [if_pos late]
  exact removed

/-- Otherwise the records stay as they are. -/
theorem keeps_cleanHeader (sound : w.storage.Sound) {checkTime : Ptime} {h : DataItemHeader}
    (clean : Clean h.key ∧ Clean h.title)
    (live : ¬ seconds h.ttl < checkTime - fromTimeT h.time) :
    Act.Keeps (Holds rs max) (cleanHeader w checkTime h) := by
  refine .rethrowAs ?_
  simp only [if_neg live]
  exact .bind (reads_holds.findTitle sound clean {}) fun _ => holds_allows.iterativeStore _

/-! ## Inputs -/

/-- What an input hands to the storage are clean strings. -/
def Input.Clean (w : World) : Input → Prop
  | receive _ body =>
    let m := (w.parse body).2
    (m.type = .sendStore → Lib.Clean m.toId ∧ Lib.Clean m.dataItem.title) ∧
      (m.type = .sendFindValue → Lib.Clean m.toId ∧ Lib.Clean m.fromId)
  | cleanHeader _ h => Lib.Clean h.key ∧ Lib.Clean h.title
  | _ => True

/-- What an input makes of the records. -/
def Input.Effect (w : World) (s : Node) (rs : RecordStore) : Input → RecordStore → Prop
  | receive _ body, rs' =>
    let m := (w.parse body).2
    if m.type = .sendStore then
      rs.Filed s.maxRecords (Renews w ⟨rs.tables, s.dbStorage.calls⟩ m.toId (arriving w s m))
        m.toId (arriving w s m) rs'
    else rs' = rs
  | cleanHeader checkTime h, rs' =>
    rs' = if seconds h.ttl < checkTime - fromTimeT h.time then rs.remove h.key h.title else rs
  | _, rs' => rs' = rs

/-- How many records may be held after an input. -/
def Input.limit (max : Nat) : Input → Nat
  | setMaxRecord n => n
  | _ => max

/-- An input that the process survives has its effect on the records. -/
theorem input_effect {input : Input} (sane : s.Sane) (sound : w.storage.Sound)
    (held : s.dbStorage.tables = rs.tables) (clean : input.Clean w)
    (run : Act.exec (input.run w) s = (out, s')) (survives : Survives out) :
    ∃ rs', input.Effect w s rs rs' ∧ Holds rs' (input.limit s.maxRecords) s' := by
  have holds : Holds rs s.maxRecords s := ⟨held, rfl⟩
  have quiet (kept : Act.Keeps (Holds rs s.maxRecords) (input.run w)) : Holds rs s.maxRecords s' := by
    have after := kept s holds
    rwa [run] at after
  have rule : Allows w (Holds rs s.maxRecords) _ _ := holds_allows
  cases input with
  | receive ep body =>
    by_cases type : (w.parse body).2.type = .sendStore
    · obtain ⟨rs', filed, after⟩ := receive_store sane sound held rfl type (clean.1 type) run survives
      refine ⟨rs', ?_, after⟩
      simp only [Input.Effect, if_pos type]
      exact filed
    · refine ⟨rs, ?_, quiet ?_⟩
      · simp only [Input.Effect, if_neg type]
      · exact rule.handleReceive (fun _ _ h => h) trivial (fun _ _ => trivial)
          (fun store => absurd store type) fun find =>
            reads_holds_from.handleSendFindValue sound (rule.sentFrom ep).toCarries (clean.2 find)
  | disconnect ep => exact ⟨rs, rfl, quiet (rule.handleDisconnect ep)⟩
  | iterativeStore k b => exact ⟨rs, rfl, quiet (rule.iterativeStore b)⟩
  | iterativeFindNode k => exact ⟨rs, rfl, quiet rule.iterativeFindNode⟩
  | iterativeFindValue k c hint => exact ⟨rs, rfl, quiet (rule.iterativeFindValue c hint)⟩
  | pingEndpoint epp t => exact ⟨rs, rfl, quiet (rule.sendPingTo epp)⟩
  | ping toId t => exact ⟨rs, rfl, quiet rule.sendPing⟩
  | setMaxRecord n =>
    obtain rfl : _ = s' := congrArg Prod.snd run
    exact ⟨rs, rfl, held, rfl⟩
  | refreshContacts => exact ⟨rs, rfl, quiet rule.refreshContacts⟩
  | diversify => exact ⟨rs, rfl, quiet rule.diversify⟩
  | storedHeaders =>
    exact ⟨rs, rfl, quiet (.bind (.rethrowAs (reads_holds.listHeaders sound)) fun _ => .pure _)⟩
  | cleanHeader checkTime h =>
    by_cases late : seconds h.ttl < checkTime - fromTimeT h.time
    · refine ⟨rs.remove h.key h.title, by simp only [Input.Effect, if_pos late], ?_⟩
      rw [Input.run, exec_cleanHeader_expired sound held clean late] at run
      obtain rfl := congrArg Prod.snd run
      exact ⟨rfl, rfl⟩
    · refine ⟨rs, by simp only [Input.Effect, if_neg late], quiet ?_⟩
      exact keeps_cleanHeader sound clean late

/-- The states of a node that started on records and was handed clean strings only. -/
inductive Keeping (w : World) : Node → Prop where
  | start {key : BitVec keySize} {maxRecords : Nat} {rs : RecordStore} {contacts : Contacts}
      {s : Node} (clean : rs.CleanStrings)
      (run : Act.exec (restoreFromBackup w) (initial key maxRecords rs.tables contacts) =
        (.ok (), s)) : Keeping w s
  | step {s s' : Node} {input : Input} {out : Except Fault Unit} (keeping : Keeping w s)
      (clean : input.Clean w) (run : Act.exec (input.run w) s = (out, s'))
      (survives : Survives out) : Keeping w s'

theorem Keeping.reachable (keeping : Keeping w s) : Reachable w s := by
  induction keeping with
  | start _ run => exact .start run
  | step _ _ run survives ih => exact .step ih run survives

theorem Input.Effect.cleanStrings {input : Input} {rs' : RecordStore}
    (effect : input.Effect w s rs rs') (before : rs.CleanStrings) (clean : input.Clean w) :
    rs'.CleanStrings := by
  cases input with
  | receive ep body =>
    by_cases type : (w.parse body).2.type = .sendStore
    · simp only [Effect, if_pos type] at effect
      exact effect.cleanStrings before (clean.1 type)
    · simp only [Effect, if_neg type] at effect
      rwa [effect]
  | cleanHeader checkTime h =>
    obtain rfl : rs' = _ := effect
    split
    · exact fun r member => before r (List.mem_of_mem_filter member)
    · exact before
  | _ =>
    obtain rfl : rs' = rs := effect
    exact before

theorem Keeping.records (keeping : Keeping w s) (sound : w.storage.Sound) :
    ∃ rs : RecordStore, s.dbStorage.tables = rs.tables ∧ rs.CleanStrings := by
  induction keeping with
  | @start key maxRecords rs contacts s clean run =>
    have kept := Leaves.restoreFromBackup (w := w) blind_shelf (fun _ _ => rfl) _
      (initial key maxRecords rs.tables contacts) rfl
    rw [run] at kept
    exact ⟨rs, congrArg (Conn.tables ∘ Prod.fst) kept, clean⟩
  | @step s s' input out keeping clean run survives ih =>
    obtain ⟨rs, held, strings⟩ := ih
    obtain ⟨rs', effect, after⟩ := input_effect keeping.reachable.sane sound held clean run survives
    exact ⟨rs', after.1, effect.cleanStrings strings clean⟩

/-- A node with a new database and an empty backup. -/
theorem keeping_fresh (sound : w.backup.Sound) (key : BitVec keySize) (max : Nat) :
    ∃ s, Keeping w s ∧ s.id = keyToString key ∧ Holds .empty max s ∧ s.ticks = 0 := by
  have run := exec_restoreFromBackup_empty sound key max RecordStore.empty.tables
  exact ⟨_, .start (fun r member => by cases member) run, rfl, ⟨rfl, rfl⟩, rfl⟩

/-! ### A first item -/

/-- A store by the first peer under the id of the node `1`. -/
def peerStores (title : String) (data : List UInt8) (ttl : UInt64) : MessageProto :=
  { type := .sendStore, fromId := peerA.key, toId := keyToString 1,
    dataItem := { ttl := ttl, title := title, data := data } }

theorem clean_peerStores {title : String} {data : List UInt8} {ttl : UInt64}
    (clean : Clean title) :
    Clean (peerStores title data ttl).toId ∧ Clean (peerStores title data ttl).dataItem.title := by
  have own : Clean (keyToString 1) := by decide
  exact ⟨own, clean⟩

/-- A new node for one record has stored the item of the first packet. -/
structure StoredFirst (w : World) (m : MessageProto) (s₀ s : Node) (rs : RecordStore)
    (n : Nat) : Prop where
  keeping₀ : Keeping w s₀
  empty : s₀.dbStorage.tables = {}
  limit : s₀.maxRecords = 1
  run : Act.exec (handleReceive w s₀.senderEndpoint [0]) s₀ = (.ok (), s)
  own : s.id = keyToString 1
  began : s₀.ticks = 0
  ticks : 2 ≤ s.ticks
  holds : Holds rs 1 s
  records : rs.records = [.ofItem n m.toId (arriving w s₀ m)]

theorem StoredFirst.mem {s₀ : Node} {n : Nat} (stored : StoredFirst w m s₀ s rs n) :
    .ofItem n m.toId (arriving w s₀ m) ∈ rs.records := by
  rw [stored.records]
  exact List.mem_singleton_self _

theorem Input.clean_store {ep : Endpoint} {body : List UInt8} (parsed : (w.parse body).2 = m)
    (type : m.type = .sendStore) (clean : Lib.Clean m.toId ∧ Lib.Clean m.dataItem.title) :
    (Input.receive ep body).Clean w := by
  subst parsed
  refine ⟨fun _ => clean, fun find => ?_⟩
  rw [type] at find
  cases find

theorem Keeping.store (keeping : Keeping w s) {ep : Endpoint} {body : List UInt8}
    (parsed : (w.parse body).2 = m) (type : m.type = .sendStore)
    (clean : Clean m.toId ∧ Clean m.dataItem.title)
    (run : Act.exec (handleReceive w ep body) s = (out, s')) (survives : Survives out) :
    Keeping w s' := by
  rw [← Input.run] at run
  exact keeping.step (Input.clean_store parsed type clean) run survives

theorem StoredFirst.keeping {s₀ : Node} {n : Nat} (stored : StoredFirst w m s₀ s rs n)
    (parsed : (w.parse [0]).2 = m) (type : m.type = .sendStore)
    (clean : Clean m.toId ∧ Clean m.dataItem.title) : Keeping w s :=
  stored.keeping₀.store parsed type clean stored.run trivial

theorem exists_storedFirst (sound : w.storage.Sound) (backed : w.backup.Sound)
    (parsed : (w.parse [0]).2 = m) (type : m.type = .sendStore)
    (clean : Clean m.toId ∧ Clean m.dataItem.title) (sender : m.fromId ≠ zeroId) :
    ∃ s₀ s rs n, StoredFirst w m s₀ s rs n := by
  obtain ⟨s₀, keeping, own, ⟨held, limit⟩, began⟩ := keeping_fresh (w := w) backed 1 1
  obtain ⟨rs, s₂, filed, greeted, after, received⟩ := exec_receive_filed
    keeping.reachable.sane sound held s₀.senderEndpoint parsed type clean
    (.inr (by rw [limit]; decide))
  obtain ⟨n, records⟩ := filed.of_empty
  rw [limit] at after
  have ticks : 2 ≤ s₂.ticks := by simpa [began] using greeted.ticks
  exact ⟨s₀, _, rs, n, keeping, held, limit, received.trans (Act.exec_rethrowAs_ok.mpr
    (exec_replyStore sender greeted.sane.named)), greeted.id.trans own, began,
    ticks, after, records⟩

end Node

end MiniDht
