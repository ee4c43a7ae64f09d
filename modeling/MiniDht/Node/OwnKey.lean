import MiniDht.Node.Posting
import MiniDht.Node.Shelf

/-!
# One key for everything

A node files what it is sent under the key the sender addressed it by, its own. Then nothing is
under any other key, whichever calls of the database fail: what a peer asks for, under the key of
that peer, is not there (`Posted.handleSendFindValue_own`).
-/

namespace MiniDht

open Lib

/-- All headers are under one key. -/
def Tables.Under (own : String) (t : Tables) : Prop := ∀ h ∈ t.dataHeader, h.key = own

namespace DbMultiKeyData

variable {q : Sqlite Tables Row} {own key title : String} {time ttl : Int} {data : List UInt8}

/-- A statement that adds no header under another key. -/
theorem under_exec {st : DbStmt} (f : String → String) (reads : st.Reads)
    (files : ∀ n t t' rows, st.eval n t = some (t', rows) →
      ∀ h ∈ t'.dataHeader, h ∈ t.dataHeader ∨ h.key = own) :
    Act.Keeps (fun c : Conn Tables => c.tables.Under own) (q.exec f st) :=
  keeps_exec (I := Tables.Under own) q f reads fun n t t' rows kept run h member =>
    (files n t t' rows run h member).elim (kept h) id

/-- A statement that leaves the headers as they are. -/
theorem under_same {st : DbStmt} (f : String → String) (reads : st.Reads)
    (same : ∀ n t t' rows, st.eval n t = some (t', rows) → t'.dataHeader = t.dataHeader) :
    Act.Keeps (fun c : Conn Tables => c.tables.Under own) (q.exec f st) :=
  under_exec f reads fun n t t' rows run _ member => .inl (same n t t' rows run ▸ member)

theorem under_prepare (f : String → String) (st : DbStmt) :
    Act.Keeps (fun c : Conn Tables => c.tables.Under own) (q.prepare f st) :=
  keeps_prepare (I := Tables.Under own) q f st

theorem under_call (f : String → String) :
    Act.Keeps (fun c : Conn Tables => c.tables.Under own) (q.call f) :=
  keeps_call (I := Tables.Under own) q f

/-- A SELECT. -/
theorem under_select {st : DbStmt} (reads : st.Reads)
    (same : ∀ n t t' rows, st.eval n t = some (t', rows) → t' = t) (prepareError finalizeError : String) :
    Act.Keeps (fun c : Conn Tables => c.tables.Under own)
      (selectRows q prepareError finalizeError st) :=
  .bind (under_prepare _ _) fun _ => under_same _ reads fun n t t' rows run =>
    congrArg Tables.dataHeader (same n t t' rows run)

theorem under_insert (clean : Clean own ∧ Clean title) :
    Act.Keeps (fun c : Conn Tables => c.tables.Under own) (insert q own title time ttl data) := by
  refine .bind (under_exec _ (reads_insertHeader.mpr clean) ?_) fun _ =>
    .bind (under_same _ (reads_insertTime.mpr clean) ?_) fun _ => .bind (under_prepare _ _) fun _ =>
    .bind (under_call _) fun _ => .bind (under_same _ (reads_insertItem.mpr clean) ?_) fun _ =>
    .bind (under_call _) fun _ => .pure _
  · rintro n t t' rows ⟨⟩ h member
    exact (List.mem_append.mp member).imp id fun new => by rw [List.mem_singleton.mp new]
  · rintro n t t' rows ⟨⟩
    rfl
  · rintro n t t' rows ⟨⟩
    rfl

theorem under_update (clean : Clean key ∧ Clean title) :
    Act.Keeps (fun c : Conn Tables => c.tables.Under own) (update q key title time ttl) := by
  refine .bind (under_same _ (reads_updateTime.mpr clean) ?_) fun _ => .pure _
  rintro n t t' rows ⟨⟩
  rfl

theorem under_remove (clean : Clean key ∧ Clean title) :
    Act.Keeps (fun c : Conn Tables => c.tables.Under own) (remove q key title) := by
  refine .bind (under_exec _ (reads_deleteHeader.mpr clean) ?_) fun _ => .pure _
  rintro n t t' rows ⟨⟩ h member
  exact .inl (List.mem_of_mem_filter member)

theorem under_removeOldest :
    Act.Keeps (fun c : Conn Tables => c.tables.Under own) (removeOldest q) := by
  refine .bind (under_exec _ reads_deleteOldest ?_) fun _ => .pure _
  intro n t t' rows run h member
  simp only [deleteOldest] at run
  split at run
  · cases run
    exact .inl member
  · cases run
    exact .inl (List.mem_of_mem_filter member)

theorem under_size : Act.Keeps (fun c : Conn Tables => c.tables.Under own) (size q) := by
  refine .bind (under_same _ reads_countAll ?_) fun _ => .pure _
  rintro n t t' rows ⟨⟩
  rfl

theorem under_count (clean : Clean key) :
    Act.Keeps (fun c : Conn Tables => c.tables.Under own) (count q key) := by
  refine .bind (under_same _ (reads_countKey.mpr clean) ?_) fun _ => .pure _
  rintro n t t' rows ⟨⟩
  rfl

theorem under_find (clean : Clean key) :
    Act.Keeps (fun c : Conn Tables => c.tables.Under own) (find q key) := by
  refine .bind (under_select (reads_selectKey.mpr clean) ?_ _ _) fun _ => .pure _
  rintro n t t' rows ⟨⟩
  rfl

theorem under_findNoBlob (clean : Clean key) :
    Act.Keeps (fun c : Conn Tables => c.tables.Under own) (findNoBlob q key) := by
  refine .bind (under_select (reads_selectNoBlob.mpr clean) ?_ _ _) fun _ => .pure _
  rintro n t t' rows ⟨⟩
  rfl

theorem under_listHeaders :
    Act.Keeps (fun c : Conn Tables => c.tables.Under own) (listHeaders q) := by
  refine .bind (under_select reads_selectHeaders ?_ _ _) fun _ => .pure _
  rintro n t t' rows ⟨⟩
  rfl

theorem under_findTitle (clean : Clean key ∧ Clean title) (out : DataItemProto) :
    Act.Keeps (fun c : Conn Tables => c.tables.Under own) (findTitle q key title out) := by
  refine .bind (under_prepare _ _) fun _ =>
    .bind (under_same _ (reads_selectTitle.mpr clean) ?_) fun rows => ?_
  · rintro n t t' rows ⟨⟩
    rfl
  · cases rows with
    | nil => exact .bind .get fun _ => .throw _
    | cons row rest => exact .bind (under_call _) fun _ => .pure _

/-- Under another key nothing is found. -/
theorem find_other {c c' : Conn Tables} {found : List DataItemProto} (under : c.tables.Under own)
    (other : key ≠ own) (clean : Clean key)
    (run : Act.exec (find q key) c = (.ok found, c')) : found = [] := by
  obtain ⟨rows, c₂, selected, same⟩ := Act.exec_bind_returns.mp run
  obtain ⟨_, c₁, prepared, stepped⟩ := Act.exec_bind_returns.mp selected
  have kept : c₁.tables.Under own := by
    have after : (Act.exec (q.prepare ("SQL error in SELECT [...] : " ++ ·) (selectKey key)) c).2.tables.Under
        own := under_prepare _ _ c under
    rwa [prepared] at after
  have bare : c₁.tables.byKey key = [] := by
    rw [Tables.byKey, List.filter_eq_nil_iff]
    intro h member
    rw [kept h member]
    simpa using other.symm
  have none : (selectKey key).eval (q.choice c₁.calls) c₁.tables = some (c₁.tables, []) := by
    simp [selectKey, bare, Tables.headerIds]
  cases fails : q.fails c₁.calls with
  | true =>
    rw [exec_fails fails] at stepped
    cases stepped
  | false =>
    rw [exec_answered fails (answer_reads (reads_selectKey.mpr clean) none)] at stepped
    obtain rfl := Except.ok.inj (congrArg Prod.fst stepped)
    obtain rfl := Except.ok.inj (congrArg Prod.fst same)
    rw [(q.arrange_perm c₁.calls []).eq_nil]
    rfl

end DbMultiKeyData

namespace Node

variable {w : World} {own : String} {m : MessageProto}

/-- All the node stores is under its own key. -/
def OwnKey (own : String) (s : Node) : Prop := s.dbStorage.tables.Under own

theorem ownKey_onStorage {α : Type} {x : DbM Tables α}
    (kept : Act.Keeps (fun c : Conn Tables => c.tables.Under own) x) :
    Act.Keeps (OwnKey own) (onStorage x) := .zoom fun s h => kept s.dbStorage h

theorem ownKey_allows : Allows w (OwnKey own) (fun _ => True) (fun _ _ => True) where
  toNotes := .of_book (fun _ _ _ _ _ h => h) (fun _ _ h _ => h) fun _ _ _ _ _ => trivial
  backup _ _ h := h
  search _ _ _ h _ := h
  done _ _ h := h
  held _ _ _ _ _ _ _ := trivial
  add _ _ _ _ _ _ _ h _ _ := h
  drop _ _ h := h
  look _ _ h := h
  listed _ _ _ _ := trivial

theorem ownKey_makeRoom (fuel : Nat) : Act.Keeps (OwnKey own) (makeRoom w fuel) := by
  induction fuel with
  | zero => exact .throw _
  | succ fuel ih =>
    exact .bind (ownKey_onStorage DbMultiKeyData.under_size) fun _ => .bind .get fun _ =>
      .ite (.pure _) <| .bind (ownKey_onStorage DbMultiKeyData.under_removeOldest) fun _ => ih

theorem ownKey_refreshTitle {k : String} {d : DataItemProto} (clean : Clean k ∧ Clean d.title)
    (ld : List DataItemProto) : Act.Keeps (OwnKey own) (refreshTitle w k d ld) := by
  induction ld with
  | nil => exact .pure _
  | cons item rest ih =>
    exact .ite (.bind (fun _ h => h) fun _ =>
      .ite (.bind (ownKey_onStorage (DbMultiKeyData.under_update clean)) fun _ => .pure _) (.pure _)) ih

theorem ownKey_insertDb {d : DataItemProto} (clean : Clean own ∧ Clean d.title) :
    Act.Keeps (OwnKey own) (insertDb w own d) := by
  have filed : Act.Keeps (OwnKey own) (insertItem w own d) :=
    ownKey_onStorage (DbMultiKeyData.under_insert clean)
  refine .bind (ownKey_onStorage (DbMultiKeyData.under_count clean.1)) fun _ => .ite ?_ ?_
  · exact .bind .get fun _ => .bind (ownKey_makeRoom _) fun _ => filed
  · exact .bind (ownKey_onStorage (DbMultiKeyData.under_findNoBlob clean.1)) fun _ =>
      .bind (ownKey_refreshTitle clean _) fun _ => .ite (.pure _) filed

theorem ownKey_handleSendStore (meant : m.toId = own) (clean : Clean own ∧ Clean m.dataItem.title) :
    Act.Keeps (OwnKey own) (handleSendStore w m) := by
  refine .bind (fun _ h => h) fun _ => ?_
  rw [meant]
  exact .bind (ownKey_insertDb clean) fun _ => (ownKey_allows (w := w)).replyStore

theorem ownKey_handleSendFindValue (clean : Clean m.toId ∧ Clean m.fromId) :
    Act.Keeps (OwnKey own) (handleSendFindValue w m) := by
  have carries : Carries (OwnKey own) _ := (ownKey_allows (w := w)).toCarries
  refine .bind (ownKey_onStorage (DbMultiKeyData.under_count clean.1)) fun _ =>
    .ite (Carries.checked <| .bind .get fun _ => ?_) carries.replyFindNode
  exact .bind (ownKey_onStorage (DbMultiKeyData.under_find clean.2)) fun _ =>
    .ite (carries.sendMessage trivial) (.pure _)

/-- A node to which items are sent under its own key stores them under no other. -/
theorem ownKey_run (own : String) (input : Input) (clean : input.Clean w)
    (meant : ∀ ep body, input = .receive ep body → (w.parse body).2.type = .sendStore →
      (w.parse body).2.toId = own) : Act.Keeps (OwnKey own) (input.run w) := by
  have rule : Allows w (OwnKey own) _ _ := ownKey_allows
  have sender : Blind Node.senderEndpoint := fun _ _ _ _ _ _ => rfl
  cases input with
  | receive ep body =>
    have fixed := sender.carries w ep
    refine rule.handleReceive (fun _ _ h => h) trivial (fun _ _ => trivial) (fun store s h => ?_)
      fun find s h => ?_
    · have mine := meant ep body rfl store
      exact ⟨ownKey_handleSendStore mine ⟨mine ▸ (clean.1 store).1, (clean.1 store).2⟩ s h.1,
        fixed.handleSendStore (fun _ _ same => same) s h.2⟩
    · exact ⟨ownKey_handleSendFindValue (clean.2 find) s h.1,
        fixed.handleSendFindValue (fun _ _ same => same) s h.2⟩
  | disconnect ep => exact rule.handleDisconnect ep
  | iterativeStore k b => exact rule.iterativeStore b
  | iterativeFindNode k => exact rule.iterativeFindNode
  | iterativeFindValue k c hint => exact rule.iterativeFindValue c hint
  | pingEndpoint epp t => exact rule.sendPingTo epp
  | ping toId t => exact rule.sendPing
  | setMaxRecord n => exact .modify fun _ h => h
  | refreshContacts => exact rule.refreshContacts
  | diversify => exact rule.diversify
  | storedHeaders =>
    exact .bind (.rethrowAs (ownKey_onStorage DbMultiKeyData.under_listHeaders)) fun _ => .pure _
  | cleanHeader checkTime h =>
    exact rule.cleanHeader (ownKey_onStorage (DbMultiKeyData.under_remove clean))
      (ownKey_onStorage (DbMultiKeyData.under_findTitle clean _))

/-! ## What is handed out -/

section Finds

variable {allowed : MessageType → Prop} {dialled : EndpointProto → Prop}
  {known : String → EndpointProto → Prop} {s : Node}

/-- A node that stores under its own key alone hands out nothing to another. -/
theorem Posted.handleSendFindValue_own (may : ∀ type ≠ .replyFindValue, allowed type)
    (other : m.fromId ≠ own) (clean : Clean m.toId ∧ Clean m.fromId)
    (h : Posted w allowed dialled known own s) (under : OwnKey own s) :
    Posted w allowed dialled known own (Act.exec (handleSendFindValue w m) s).2 := by
  have rule : Posts w (Posted w allowed dialled known own) _ _ _ := Posted.posts may
  let I (s : Node) : Prop := Posted w allowed dialled known own s ∧ OwnKey own s
  have storage {α : Type} {x : DbM Tables α}
      (kept : Act.Keeps (fun c : Conn Tables => c.tables.Under own) x) :
      Act.Keeps I (onStorage x) := fun s h => ⟨rule.onStorage x s h.1, ownKey_onStorage kept s h.2⟩
  have carries : Carries (OwnKey own) _ := (ownKey_allows (w := w)).toCarries
  have values : Act.Keeps I (replyFindValue w m.fromId m.token m.hint) := by
    refine Carries.checked <| .get_bind fun s h => ?_
    have after := storage (DbMultiKeyData.under_find (q := w.storage) clean.2) s h
    rw [onStorage, Act.exec_zoom] at after
    rw [Act.exec_bind, onStorage, Act.exec_zoom]
    cases read : Act.exec (DbMultiKeyData.find w.storage m.fromId) s.dbStorage with
    | mk r c =>
      rw [read] at after
      cases r with
      | error e => exact after
      | ok found =>
        obtain rfl := DbMultiKeyData.find_other h.2 other clean.2 read
        exact after
  have kept : Act.Keeps I (handleSendFindValue w m) :=
    .bind (storage (DbMultiKeyData.under_count clean.1)) fun _ => .ite values fun s h =>
      ⟨rule.replyFindNode s h.1, carries.replyFindNode s h.2⟩
  exact (kept s ⟨h, under⟩).1

end Finds

end Node

end MiniDht
