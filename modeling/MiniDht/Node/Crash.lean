import MiniDht.Node.Meeting
import MiniDht.Node.Storing

/-!
# What a packet can do to the process

`handle_receive` is entered for every packet. Most of what a packet can say is handled and
forgotten, but some messages fail an assert, make the handler throw or never let it end.
`Harmless` says which do not, by what the message says and what the node holds.
-/

namespace MiniDht

open Lib

namespace Node

variable {w : World} {s : Node} {t : Token} {m : MessageProto} {q : Search} {toId : String}

/-! ## Replies to requests -/

/-- A call that fails by nothing but a `std::exception` on a node whose contacts have
endpoints. -/
abbrev Gentle {α : Type} (x : NodeM α) : Prop :=
  Act.Tame (fun s : Node => s.contactList.Named) x

theorem gentle_sendMessage (nonzero : m.toId ≠ zeroId) : Gentle (sendMessage w m) := by
  intro s named
  rw [exec_sendMessage nonzero named]
  by_cases routed : m.toId = s.id ∨ (s.contactList.lookup m.toId).isSome
  · rw [if_pos routed]
    exact .inl ⟨(), rfl, named⟩
  · rw [if_neg routed]
    exact .inr ⟨_, rfl⟩

theorem gentle_sendContacts (nonzero : m.toId ≠ zeroId) (lc : List ContactProto) :
    Gentle (sendContacts w m lc) := by
  induction lc generalizing m with
  | nil => exact .pure _
  | cons c rest ih =>
    have sent : Gentle (sendMessage w { m with contactList := m.contactList ++ [c] }) :=
      gentle_sendMessage nonzero
    exact .ite (.bind sent fun _ => ih nonzero) (ih nonzero)

theorem gentle_onStorage {α : Type} {x : DbM Tables α} (tame : Act.Tame (fun _ => True) x) :
    Gentle (onStorage x) :=
  .zoom tame fun _ _ named => named

/-- What answers a request returns, unless it is for the zero id. -/
theorem checked_returns {body : NodeM Unit} (gentle : toId ≠ zeroId → Gentle body)
    (named : s.contactList.Named) :
    (Act.exec (checked toId body) s).1 = .ok () ↔ toId ≠ zeroId := by
  by_cases nonzero : toId ≠ zeroId
  · rw [exec_checked nonzero]
    exact iff_of_true ((gentle nonzero).returns named) nonzero
  · rw [exec_checked_zero (not_not.mp nonzero)]
    exact iff_of_false (by simp) nonzero

section Replies

variable (named : s.contactList.Named)
include named

theorem replyPing_returns :
    (Act.exec (replyPing w toId t) s).1 = .ok () ↔ toId ≠ zeroId :=
  checked_returns (fun nonzero => .bind .get fun _ => gentle_sendMessage nonzero) named

theorem replyStore_returns {cbf : DataItemProto} :
    (Act.exec (replyStore w toId t cbf) s).1 = .ok () ↔ toId ≠ zeroId :=
  checked_returns (fun nonzero => .bind .get fun _ => gentle_sendMessage nonzero) named

theorem replyFindNode_returns :
    (Act.exec (replyFindNode w toId t) s).1 = .ok () ↔ toId ≠ zeroId :=
  checked_returns (fun nonzero => .bind .get fun _ => gentle_sendContacts nonzero _) named

theorem replyFindValue_returns {hint : String} :
    (Act.exec (replyFindValue w toId t hint) s).1 = .ok () ↔ toId ≠ zeroId :=
  checked_returns (fun nonzero => .bind .get fun _ =>
    .bind (gentle_onStorage (DbMultiKeyData.tame_find _ _)) fun _ =>
      .ite (gentle_sendMessage nonzero) (.pure _)) named

end Replies

/-! ## The handlers -/

/-- A sequence returns if both parts do. -/
theorem returns_bind {α β : Type} {x : NodeM α} {f : α → NodeM β} {b : β} :
    (Act.exec (x >>= f) s).1 = .ok b ↔
      ∃ a s', Act.exec x s = (.ok a, s') ∧ (Act.exec (f a) s').1 = .ok b := by
  rw [Act.exec_bind]
  obtain ⟨o, s'⟩ := Act.exec x s
  cases o with
  | error e => simp
  | ok a => simp

/-- The item that `handle_SEND_STORE` stores: that of the message, with the time it is
handled at. -/
def stamped (w : World) (s : Node) (m : MessageProto) : DataItemProto :=
  { m.dataItem with time := toUnsigned (toTimeT (w.clock s.ticks)) }

theorem handleSendStore_returns (sane : s.Sane) :
    (Act.exec (handleSendStore w m) s).1 = .ok () ↔
      m.fromId ≠ zeroId ∧
        (Act.exec (insertDb w m.toId (stamped w s m)) { s with ticks := s.ticks + 1 }).1 = .ok () := by
  have stored := (Inert.insertDb (w := w) m.toId (stamped w s m)).sane
    { s with ticks := s.ticks + 1 } (sane.congr rfl)
  rw [handleSendStore, Act.exec_bind_ok (exec_updateTime w s), returns_bind]
  constructor
  · rintro ⟨_, s', run, replied⟩
    have run' : Act.exec (insertDb w m.toId (stamped w s m)) { s with ticks := s.ticks + 1 } =
        (.ok (), s') := run
    rw [run'] at stored ⊢
    exact ⟨(replyStore_returns (stored trivial).named).mp replied, rfl⟩
  · rintro ⟨nonzero, returned⟩
    obtain ⟨s', run⟩ : ∃ s', Act.exec (insertDb w m.toId (stamped w s m))
        { s with ticks := s.ticks + 1 } = (.ok (), s') := ⟨_, Prod.ext returned rfl⟩
    rw [run] at stored
    exact ⟨(), s', run, (replyStore_returns (stored trivial).named).mpr nonzero⟩

theorem handleSendFindValue_returns (sane : s.Sane) :
    (Act.exec (handleSendFindValue w m) s).1 = .ok () ↔
      m.fromId ≠ zeroId ∧ w.storage.Accepts s.dbStorage (countKey m.toId) := by
  rw [handleSendFindValue]
  by_cases accepts : w.storage.Accepts s.dbStorage (countKey m.toId)
  · obtain ⟨rows, c, run⟩ := exec_accepts
      (f := ("SQL error in SELECT Count(*) WHERE key = '" ++ m.toId ++ "' : " ++ ·)) accepts
    have counted : Act.exec (onStorage (DbMultiKeyData.count w.storage m.toId)) s =
        (.ok (DbMultiKeyData.readCount rows), { s with dbStorage := c }) := by
      rw [onStorage, Act.exec_zoom, DbMultiKeyData.count, Act.exec_bind_ok run]
      rfl
    have named : ({ s with dbStorage := c } : Node).contactList.Named := sane.named
    rw [Act.exec_bind_ok counted, and_iff_left accepts]
    by_cases present : DbMultiKeyData.readCount rows ≠ 0
    · rw [if_pos present]
      exact replyFindValue_returns named
    · rw [if_neg present]
      exact replyFindNode_returns named
  · obtain ⟨what, c, run⟩ := exec_refuses
      (f := ("SQL error in SELECT Count(*) WHERE key = '" ++ m.toId ++ "' : " ++ ·)) accepts
    have refused : Act.exec (onStorage (DbMultiKeyData.count w.storage m.toId)) s =
        (.error (.exception what), { s with dbStorage := c }) := by
      rw [onStorage, Act.exec_zoom, DbMultiKeyData.count, Act.exec_bind_error run]
    rw [Act.exec_bind_error refused]
    exact iff_of_false (by simp) fun both => accepts both.2

theorem handleReplyStore_returns :
    (Act.exec (handleReplyStore m) s).1 = .ok () ↔
      ∀ size, s.mapStoreCheckVal m.token = some size → m.checkVal = size := by
  rw [exec_handleReplyStore]
  cases noted : s.mapStoreCheckVal m.token with
  | none => simp
  | some size => by_cases same : m.checkVal = size <;> simp [same]

theorem handleReplyFindNode_returns (sane : s.Sane) :
    (Act.exec (handleReplyFindNode w m) s).1 = .ok () ↔
      ∀ q, s.mapSearch m.token = some q → Search.AllNamed m.contactList ∧
        zeroId ∉ Search.keys m.contactList ∧ RoundSafe q m.contactList m.toId := by
  cases here : s.mapSearch m.token with
  | none => simp [exec_handleReplyFindNode_unknown here]
  | some q =>
    simp only [Option.some.injEq, forall_eq']
    constructor
    · intro returned
      have good : Search.AllNamed m.contactList ∧ zeroId ∉ Search.keys m.contactList := by
        by_contra bad
        rw [exec_handleReplyFindNode_abort sane here bad] at returned
        cases returned
      obtain ⟨offered, safe, -⟩ := reply_cases sane here (Prod.ext returned rfl)
      exact ⟨offered, good.2, safe⟩
    · rintro ⟨offered, nonzero, safe⟩
      obtain ⟨s', run, -⟩ := reply_returns (w := w) sane here offered nonzero safe
      rw [run]

theorem handleReplyFindValue_returns :
    (Act.exec (handleReplyFindValue w m) s).1 = .ok () ↔
      ∀ q, s.mapSearch m.token = some q →
        ∃ c, q.valueCallback = some c ∧ w.valueCallback c m.dataItemList = .ok () := by
  rw [exec_handleReplyFindValue]
  cases here : s.mapSearch m.token with
  | none => simp
  | some q =>
    simp only [Option.some.injEq, forall_eq']
    cases callback : q.valueCallback with
    | none => simp
    | some c => cases called : w.valueCallback c m.dataItemList <;> simp [called]

/-! ## A packet arrives -/

/-- What the message must say, and the node hold, for the handler to return. `stores`
stands for what `insert_db` needs, and `counts` for what the count of a key needs. -/
def Harmless (w : World) (s : Node) (m : MessageProto) (stores counts : Prop) : Prop :=
  match m.type with
  | .none => False
  | .sendPing | .sendFindNode => m.fromId ≠ zeroId
  | .sendStore => m.fromId ≠ zeroId ∧ stores
  | .sendFindValue => m.fromId ≠ zeroId ∧ counts
  | .replyPing => True
  | .replyStore => ∀ size, s.mapStoreCheckVal m.token = some size → m.checkVal = size
  | .replyFindNode =>
    ∀ q, s.mapSearch m.token = some q → Search.AllNamed m.contactList ∧
      zeroId ∉ Search.keys m.contactList ∧ RoundSafe q m.contactList m.toId
  | .replyFindValue =>
    ∀ q, s.mapSearch m.token = some q →
      ∃ c, q.valueCallback = some c ∧ w.valueCallback c m.dataItemList = .ok ()

/-- The node when `insert_db` is called for a `SEND_STORE`: the sender has become a contact
and the clock has been read. -/
def atInsert (w : World) (s : Node) (ep : Endpoint) (m : MessageProto) : Node :=
  (Act.exec (do
    addContact w m.fromId ep.proto
    let _ ← updateTime w) { s with senderEndpoint := ep }).2

/-- `insert_db` returns when it is called for the message. -/
def Stores (w : World) (s : Node) (ep : Endpoint) (m : MessageProto) : Prop :=
  (Act.exec (insertDb w m.toId { m.dataItem with
    time := toUnsigned (toTimeT (w.clock (s.ticks + 1))) }) (atInsert w s ep m)).1 = .ok ()

/-- The sender of a request becomes a contact before anything else. -/
theorem exec_sender (sane : s.Sane) (ep : Endpoint) (m : MessageProto) :
    ∃ b, ({ s with senderEndpoint := ep, ticks := s.ticks + 1, contactList := b } : Node).Sane ∧
      atInsert w s ep m = { s with senderEndpoint := ep, ticks := s.ticks + 2, contactList := b } ∧
      Act.exec (addContact w m.fromId ep.proto) { s with senderEndpoint := ep } =
        (.ok (), { s with senderEndpoint := ep, ticks := s.ticks + 1, contactList := b }) := by
  have sane' : ({ s with senderEndpoint := ep } : Node).Sane := sane.congr rfl
  obtain ⟨b, -, added, kept⟩ := exec_addContact (w := w) (k := m.fromId) sane' ep.proto_named
  refine ⟨b, kept, ?_, added⟩
  rw [atInsert, Act.exec_bind_ok added]
  rfl

theorem handleMessageFrom_returns (sane : s.Sane) (ep : Endpoint) (m : MessageProto) :
    (Act.exec (handleMessageFrom w m ep.proto) { s with senderEndpoint := ep }).1 = .ok () ↔
      Harmless w s m (Stores w s ep m) (w.storage.Accepts s.dbStorage (countKey m.toId)) := by
  have sane' : ({ s with senderEndpoint := ep } : Node).Sane := sane.congr rfl
  obtain ⟨b, kept, inserting, added⟩ := exec_sender (w := w) sane ep m
  unfold handleMessageFrom Harmless
  cases type : m.type with
  | none => exact iff_of_false (by simp) not_false
  | sendPing =>
    simp only []
    rw [Act.exec_bind_ok added, handleMessage, type]
    exact replyPing_returns kept.named
  | sendFindNode =>
    simp only []
    rw [Act.exec_bind_ok added, handleMessage, type]
    exact replyFindNode_returns kept.named
  | sendStore =>
    simp only []
    rw [Act.exec_bind_ok added, handleMessage, type, Stores, inserting]
    exact handleSendStore_returns kept
  | sendFindValue =>
    simp only []
    rw [Act.exec_bind_ok added, handleMessage, type]
    exact handleSendFindValue_returns kept
  | replyPing =>
    simp only [handleMessage, type]
    obtain ⟨ticks, list, pings, run⟩ := exec_handleReplyPing (w := w) sane' m
    rw [run]
    exact iff_of_true rfl trivial
  | replyStore =>
    simp only [handleMessage, type]
    exact handleReplyStore_returns
  | replyFindNode =>
    simp only [handleMessage, type]
    exact handleReplyFindNode_returns sane'
  | replyFindValue =>
    simp only [handleMessage, type]
    exact handleReplyFindValue_returns

/-- What `insert_db` needs where the storage holds records and the strings are clean. -/
theorem stores_iff {rs : RecordStore} (sound : w.storage.Sound)
    (held : s.dbStorage.tables = rs.tables) (sane : s.Sane) (ep : Endpoint) (clean : Clean m.toId ∧ Clean m.dataItem.title) :
    Stores w s ep m ↔ rs.under m.toId ≠ [] ∨ 0 < s.maxRecords := by
  obtain ⟨b, -, inserting, -⟩ := exec_sender (w := w) sane ep m
  let s' : Node := { s with senderEndpoint := ep, ticks := s.ticks + 2, contactList := b }
  have same : s'.holding rs s.dbStorage.calls = s' := holding_self held
  have returns := @insertDb_returns_iff w s' rs s.dbStorage.calls m.toId
    { m.dataItem with time := toUnsigned (toTimeT (w.clock (s.ticks + 1))) } sound clean
  rw [same] at returns
  rw [Stores, inserting]
  exact returns

theorem accepts_countKey (sound : w.storage.Sound) (clean : Clean m.toId) :
    w.storage.Accepts s.dbStorage (countKey m.toId) :=
  sound.accepts (reads_countKey.mpr clean) rfl

/-- **What a packet can do.** Where the storage holds records, its engine does not fail and the
strings are clean, a packet is handled to its end if and only if its message is harmless: a
store needs no more than that something is under the key or that a record may be held at all,
and the count nothing. Whatever the storage does, the same holds with what `insert_db` and the
count make of it. -/
theorem receive_returns_iff (reach : Reachable w s) (ep : Endpoint) (body : List UInt8) :
    (∀ rs : RecordStore, w.storage.Sound → s.dbStorage.tables = rs.tables →
      Clean (w.parse body).2.toId → Clean (w.parse body).2.dataItem.title →
        ((Act.exec (handleReceive w ep body) s).1 = .ok () ↔
          Harmless w s (w.parse body).2
            (rs.under (w.parse body).2.toId ≠ [] ∨ 0 < s.maxRecords) True)) ∧
    ((Act.exec (handleReceive w ep body) s).1 = .ok () ↔
      Harmless w s (w.parse body).2 (Stores w s ep (w.parse body).2)
        (w.storage.Accepts s.dbStorage (countKey (w.parse body).2.toId))) := by
  have returned : (Act.exec (handleReceive w ep body) s).1 = .ok () ↔
      Harmless w s (w.parse body).2 (Stores w s ep (w.parse body).2)
        (w.storage.Accepts s.dbStorage (countKey (w.parse body).2.toId)) := by
    rw [exec_handleReceive, Act.returns_rethrowAs]
    exact handleMessageFrom_returns reach.sane ep _
  refine ⟨fun rs sound held key title => ?_, returned⟩
  have stores := stores_iff sound held reach.sane ep ⟨key, title⟩
  have counts := accepts_countKey (s := s) sound key
  rwa [propext stores, eq_true counts] at returned

/-- The theorem at a ping from the first peer. -/
theorem receive_returns_iff_ping :
    ∃ s : Node, ((Act.exec (handleReceive .pinged s.senderEndpoint [0]) s).1 = .ok () ↔
      Harmless .pinged s (World.pinged.parse [0]).2
        (RecordStore.empty.under (World.pinged.parse [0]).2.toId ≠ [] ∨ 0 < s.maxRecords) True) := by
  obtain ⟨s, reach, -, -, held⟩ := reachable_fresh (w := .pinged) Sqlite.inOrder_sound 1 0 {}
  exact ⟨s, (receive_returns_iff reach s.senderEndpoint [0]).1 .empty Sqlite.inOrder_sound
    (held.trans RecordStore.tables_empty.symm) (by decide) (by decide)⟩

/-- Bytes that are no message make `handle_receive` throw, and a ping that gives the zero id
as its sender aborts the process. -/
theorem receive_crashes :
    let w := World.simple [{ type := .sendPing, fromId := zeroId }]
    ∃ s : Node, Reachable w s ∧
      (Act.exec (handleReceive w s.senderEndpoint []) s).1 =
        .error (.exception localEndpointError) ∧
      (Act.exec (handleReceive w s.senderEndpoint [0]) s).1 = .error .assertion := by
  intro w
  obtain ⟨s, reach, -⟩ := reachable_fresh (w := w) Sqlite.inOrder_sound 1 0 {}
  refine ⟨s, reach, ?_, ?_⟩
  · rw [exec_handleReceive, Act.exec_rethrowAs]
    rfl
  · obtain ⟨b, -, -, added⟩ := exec_sender (w := w) reach.sane s.senderEndpoint
      { type := .sendPing, fromId := zeroId }
    have aborts : Act.exec (handleMessageFrom w { type := .sendPing, fromId := zeroId }
        s.senderEndpoint.proto) { s with senderEndpoint := s.senderEndpoint } =
          (.error .assertion, { s with ticks := s.ticks + 1, contactList := b }) := by
      rw [handleMessageFrom]
      simp only []
      rw [Act.exec_bind_ok added, handleMessage]
      exact exec_checked_zero rfl
    rw [exec_handleReceive, Act.exec_rethrowAs]
    have parsed : (w.parse [0]).2 = { type := .sendPing, fromId := zeroId } := rfl
    rw [parsed, aborts]

end Node

end MiniDht
