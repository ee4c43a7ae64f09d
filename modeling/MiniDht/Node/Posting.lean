import MiniDht.Node.Contacts

/-!
# Where messages go

`Carries` and what extends it see which messages are sent, but not where to. An invariant
that looks at the addresses as well has to know the contact list a message is routed by:
`Posts` asks what it makes of whole calls of `send_MESSAGE`. What a node has sent then went to
its contacts, or to endpoints it was told to ping (`Posted`).
-/

namespace MiniDht

open Lib

/-- What holds of the entries of a contact list and of a contact that is added to it. -/
theorem Bucket.forall_added {b b' : Bucket} {order : EvalOrder} {pastEnd : UInt64} {now : Ptime}
    {k : String} {ep : EndpointProto} {known : String → EndpointProto → Prop} (named : b.Named)
    (old : ∀ e ∈ b.entries, known e.2.key e.2.ep) (offered : known k ep)
    (added : b.addContact order pastEnd now k ep = .ok b') :
    ∀ e ∈ b'.entries, known e.2.key e.2.ep := by
  intro e member
  rcases Bucket.addContact_cases named added with
    ⟨-, rfl⟩ | ⟨-, -, ⟨-, rfl⟩ | ⟨pos, e', -, -, rfl⟩⟩
  · exact old e member
  · rcases Bucket.mem_insertEntry member with rfl | there
    · exact offered
    · exact old e (by split at there; exacts [List.mem_of_mem_eraseIdx there, there])
  · rcases List.mem_or_eq_of_mem_set member with there | rfl
    · exact old e there
    · exact offered

/-- `list_value` hands out nothing but values of the table. -/
theorem DbKeyValue.listValue_subset {q : Sqlite Contacts KvRow} {c c' : Conn Contacts}
    {l : List String} (run : Act.exec (listValue q) c = (.ok l, c')) :
    l ⊆ c.tables.map Prod.snd := by
  have reads : selectValues.Reads := by simp [Stmt.reads_iff, selectValues]
  cases fails : q.fails c.calls with
  | true =>
    rw [listValue, Act.exec_bind_error (exec_fails fails)] at run
    cases run
  | false =>
    rw [listValue, Act.exec_bind_ok (exec_answered fails (answer_reads reads rfl))] at run
    obtain rfl := Except.ok.inj (congrArg Prod.fst run)
    have rows := (q.arrange_perm c.calls (c.tables.map fun r => { value := some r.2 })).map
      fun row => row.value.getD ""
    rw [List.map_map] at rows
    exact fun entry listed => rows.subset listed

namespace Node

/-- An invariant that stands all that leaves the core, the backup and the log of a node alone, and
the searches; each message that is `fit`, when `send_MESSAGE(m)` is done with it; the pings to
endpoints that are `dialled`; a contact list to which only `known` contacts are added; and what
is done to the rows of these in the backup. -/
structure Posts (w : World) (I : Node → Prop) (fit : MessageProto → Prop)
    (dialled : EndpointProto → Prop) (known : String → EndpointProto → Prop) : Prop where
  still : ∀ (s s' : Node), I s → s'.core = s.core → s'.dbBackup = s.dbBackup → s'.log = s.log → I s'
  search : ∀ (s : Node) (f : Token → Option Search), I s → I { s with mapSearch := f }
  own : ∀ (s : Node) (m : MessageProto), I s → m.fromId = s.id → m.type ≠ .replyFindValue → fit m
  post : ∀ (s : Node) (m : MessageProto), I s → fit m → I (Act.exec (sendMessage w m) s).2
  dial : ∀ (s : Node) (m : MessageProto) (epp : EndpointProto), I s → m.fromId = s.id →
    m.type = .sendPing → dialled epp → I (Act.exec (sendMessageTo w m epp) s).2
  add : ∀ (s : Node) (order : EvalOrder) (pastEnd : UInt64) (now : Ptime) (k : String)
    (ep : EndpointProto) (b : Bucket), I s → known k ep →
    s.contactList.addContact order pastEnd now k ep = .ok b → I { s with contactList := b }
  drop : ∀ (s : Node) (pos : Nat), I s →
    I { s with contactList := { s.contactList with entries := s.contactList.entries.eraseIdx pos } }
  look : ∀ (s : Node) (k : String), I s →
    I { s with contactList := s.contactList.buildProximity k }
  listed : ∀ (s : Node), I s → ∀ e ∈ s.contactList.entries, known e.2.key e.2.ep
  reads : Act.Keeps I (onBackup (DbKeyValue.listValue w.backup))
  finds : ∀ (k : String) (ep : EndpointProto), known k ep →
    Act.Keeps I (onBackup (DbKeyValue.find w.backup k))
  removes : ∀ (k : String) (ep : EndpointProto), known k ep →
    Act.Keeps I (onBackup (DbKeyValue.remove w.backup k))
  files : ∀ (k : String) (ep : EndpointProto), known k ep →
    Act.Keeps I (onBackup (DbKeyValue.insert w.backup k (endpointToString ep)))

namespace Posts

variable {w : World} {I : Node → Prop} {fit : MessageProto → Prop} {dialled : EndpointProto → Prop}
  {known : String → EndpointProto → Prop} {t : Token} {k toId queryId hint : String}
  {cbf : DataItemProto} {m : MessageProto} {lc : List ContactProto} {s : Node}
  (rule : Posts w I fit dialled known)
include rule

/-! ## Sending -/

theorem updateTime : Act.Keeps I (Node.updateTime w) := fun s h => rule.still s _ h rfl rfl rfl

theorem randomToken : Act.Keeps I (Node.randomToken w) := fun s h => rule.still s _ h rfl rfl rfl

theorem onStorage {α : Type} (x : DbM Tables α) : Act.Keeps I (Node.onStorage x) :=
  .zoom fun s h => rule.still s _ h rfl rfl rfl

theorem notePing : Act.Keeps I (Node.notePing w t) := fun s h => rule.still s _ h rfl rfl rfl

/-- A message that the node builds in its present state goes out. -/
theorem built {m : Node → MessageProto} (id : ∀ s, (m s).fromId = s.id)
    (type : ∀ s, (m s).type ≠ .replyFindValue) :
    Act.Keeps I ((MonadState.get : NodeM Node) >>= fun s => Node.sendMessage w (m s)) :=
  .get_bind fun s h => rule.post s _ h (rule.own s _ h (id s) (type s))

theorem sendPing : Act.Keeps I (Node.sendPing w toId t) :=
  Carries.checked <| .get_bind fun s h => Act.Keeps.bind rule.notePing
    (fun _ s' h' => rule.post s' _ h' (rule.own s (pingMessage s.id toId t) h rfl nofun)) s h

theorem sendStore : Act.Keeps I (Node.sendStore w toId queryId cbf t) :=
  Carries.checked <| .get_bind fun s h => Act.Keeps.bind
    (fun s' h' => rule.still s' _ h' rfl rfl rfl)
    (fun _ s' h' => rule.post s' _ h'
      (rule.own s (storeMessage s.id toId queryId cbf t) h rfl nofun)) s h

theorem sendFindNode : Act.Keeps I (Node.sendFindNode w toId queryId t) :=
  Carries.checked <| rule.built (m := fun s => findNodeMessage s.id toId queryId t) (fun _ => rfl)
    fun _ => nofun

theorem sendFindValue : Act.Keeps I (Node.sendFindValue w toId queryId t hint) :=
  Carries.checked <| rule.built (m := fun s => findValueMessage s.id toId queryId t hint)
    (fun _ => rfl) fun _ => nofun

theorem replyPing : Act.Keeps I (Node.replyPing w toId t) :=
  Carries.checked <| rule.built
    (m := fun s => { type := .replyPing, fromId := s.id, toId := toId, token := t })
    (fun _ => rfl) fun _ => nofun

theorem replyStore : Act.Keeps I (Node.replyStore w toId t cbf) :=
  Carries.checked <| rule.built
    (m := fun s => { type := .replyStore, fromId := s.id, toId := toId, token := t,
                     checkVal := .ofNat cbf.data.length })
    (fun _ => rfl) fun _ => nofun

/-- Every packet of a reply is fit to be sent. -/
theorem sendContacts (all : ∀ part, fit { m with contactList := part }) (begun : List ContactProto) :
    Act.Keeps I (Node.sendContacts w { m with contactList := begun } lc) := by
  induction lc generalizing begun with
  | nil => exact .pure _
  | cons c lc ih =>
    exact .ite (.bind (fun s h => rule.post s _ h (all (begun ++ [c]))) fun _ => ih []) (ih _)

theorem replyFindNode : Act.Keeps I (Node.replyFindNode w toId t) :=
  Carries.checked <| .get_bind fun s h => rule.sendContacts
    (m := { type := .replyFindNode, fromId := s.id, token := t, toId := toId })
    (fun _ => rule.own s _ h rfl nofun) [] s h

theorem pingContacts (lc : List ContactProto) : Act.Keeps I (Node.pingContacts w lc) := by
  induction lc with
  | nil => exact .pure _
  | cons c rest ih =>
    exact .bind (.ofExcept _) fun _ => .bind rule.randomToken fun _ =>
      .bind rule.sendPing fun _ => ih

theorem sendPingTo {epp : EndpointProto} (dials : dialled epp) :
    Act.Keeps I (Node.sendPingTo w epp t) :=
  .bind (.ofExcept _) fun _ => .catchStd <| .get_bind fun s h => by
    rw [Act.exec_bind_ok (exec_notePing s)]
    exact rule.dial (pinged w s t) _ epp (rule.still s _ h rfl rfl rfl) rfl rfl dials

/-! ## Storing -/

theorem makeRoom (fuel : Nat) : Act.Keeps I (Node.makeRoom w fuel) := by
  induction fuel with
  | zero => exact .throw _
  | succ fuel ih =>
    exact .bind (rule.onStorage _) fun _ => .bind .get fun _ =>
      .ite (.pure _) <| .bind (rule.onStorage _) fun _ => ih

theorem refreshTitle (d : DataItemProto) (ld : List DataItemProto) :
    Act.Keeps I (Node.refreshTitle w k d ld) := by
  induction ld with
  | nil => exact .pure _
  | cons item rest ih =>
    exact .ite (.bind rule.updateTime fun _ =>
      .ite (.bind (rule.onStorage _) fun _ => .pure _) (.pure _)) ih

theorem insertDb (d : DataItemProto) : Act.Keeps I (Node.insertDb w k d) := by
  refine .bind (rule.onStorage _) fun _ => .ite ?_ ?_
  · exact .bind .get fun _ => .bind (rule.makeRoom _) fun _ => rule.onStorage _
  · exact .bind (rule.onStorage _) fun _ => .bind (rule.refreshTitle d _) fun _ =>
      .ite (.pure _) (rule.onStorage _)

theorem handleSendStore : Act.Keeps I (Node.handleSendStore w m) :=
  .bind rule.updateTime fun _ => .bind (rule.insertDb _) fun _ => rule.replyStore

/-- What is found may be sent, if the invariant lets it. -/
theorem handleSendFindValue
    (values : ∀ (s : Node) (items : List DataItemProto), I s →
      fit { type := .replyFindValue, fromId := s.id, token := m.token, toId := m.fromId,
            dataItemList := items }) : Act.Keeps I (Node.handleSendFindValue w m) :=
  .bind (rule.onStorage _) fun _ => .ite
    (Carries.checked <| .get_bind fun s h => Act.Keeps.bind (rule.onStorage _)
      (fun _ => .ite (fun s' h' => rule.post s' _ h' (values s _ h)) (.pure _)) s h)
    rule.replyFindNode

/-! ## Searching -/

omit rule in
theorem searchAt : Act.Keeps I (Node.searchAt t) := by
  refine .bind .get fun s => ?_
  split
  · exact .pure _
  · exact .throw _

theorem putSearch {q : Search} : Act.Keeps I (Node.putSearch t q) :=
  .modify fun s h => rule.search s _ h

theorem eraseSearch : Act.Keeps I (Node.eraseSearch t) := .modify fun s h => rule.search s _ h

theorem askNodes {send : String → NodeM Unit} (sends : ∀ key, Act.Keeps I (send key)) (n : Nat) :
    Act.Keeps I (Node.askNodes t send n) := by
  induction n with
  | zero => exact .pure _
  | succ n ih =>
    refine .bind searchAt fun _ => .bind (.ofExcept _) fun _ => .ite (.pure _) ?_
    refine .bind searchAt fun _ => .bind (.ofExcept _) fun ⟨key, q⟩ => ?_
    exact .bind rule.putSearch fun _ => .bind (sends _) fun _ => ih

theorem storeAll (fuel : Nat) : Act.Keeps I (Node.storeAll w t k fuel) := by
  induction fuel with
  | zero => exact .throw _
  | succ fuel ih =>
    refine .bind searchAt fun _ => .bind (.ofExcept _) fun _ => .ite (.pure _) ?_
    refine .bind searchAt fun _ => .bind (.ofExcept _) fun ⟨key, q⟩ => ?_
    exact .bind rule.putSearch fun _ => .bind rule.sendStore fun _ => ih

theorem replyIterative : Act.Keeps I (Node.replyIterative w lc t k) := by
  have updated {x : Bool × Search → NodeM Unit} (rest : ∀ b q, Act.Keeps I (x (b, q))) :
      Act.Keeps I (Node.searchAt t >>= fun q => Act.ofExcept (q.updateList lc) >>= x) :=
    .bind searchAt fun _ => .bind (.ofExcept _) fun ⟨b, q⟩ => rest b q
  have asks (n : Nat) : Act.Keeps I (Node.askNodes t (fun key => Node.sendFindNode w key k t) n) :=
    rule.askNodes (fun _ => rule.sendFindNode) n
  refine .bind searchAt fun q => ?_
  cases q.searchType with
  | node =>
    refine updated fun _ _ => .bind rule.putSearch fun _ => .ite ?_ (asks _)
    exact .ite (.bind (.catchStd (Allows.callNodeCallback _)) fun _ => rule.eraseSearch) rule.eraseSearch
  | value =>
    exact updated fun _ _ => .bind rule.putSearch fun _ => rule.askNodes (fun _ => rule.sendFindValue) _
  | store =>
    refine .bind (.ofExcept _) fun _ => updated fun _ _ => .bind rule.putSearch fun _ => ?_
    exact .ite (.bind (rule.storeAll _) fun _ => rule.eraseSearch) (asks _)

theorem startNodeLookup : Act.Keeps I (Node.startNodeLookup w t k) :=
  .bind (.modify fun s h => rule.look s k h) fun _ => .bind .get fun _ =>
    .bind (.ofExcept _) fun _ => rule.replyIterative

/-- A search is begun, and its first round is run. -/
theorem begin {type : SearchType} {fill : Search → Search} : Act.Keeps I (do
    let t ← Node.newSearch w k type fill
    Node.startNodeLookup w t k) :=
  .bind (.bind rule.randomToken fun _ => .bind .get fun _ => .bind rule.putSearch fun _ => .pure _)
    fun _ => rule.startNodeLookup

/-! ## Cleaning up -/

theorem refreshFrom (fuel pos : Nat) : Act.Keeps I (Node.refreshFrom w fuel pos) := by
  induction fuel generalizing pos with
  | zero => exact .throw _
  | succ fuel ih =>
    refine .get_bind fun s h => ?_
    split
    · exact h
    · rename_i index c here
      have met := rule.listed s h (index, c) (List.mem_of_getElem? here)
      have write := rule.files c.key c.ep met
      refine Act.Keeps.ite (ih _) (.bind rule.updateTime fun _ => .ite ?_ ?_) s h
      · refine .bind rule.randomToken fun _ => .bind rule.sendPing fun _ =>
          .bind (rule.removes c.key c.ep met) fun _ =>
          .bind (.modify fun s h => rule.drop s pos h) fun _ => .bind .get fun _ => ?_
        exact .ite (.bind (.throw _) fun _ => ih _) (ih _)
      · refine .bind (rule.finds c.key c.ep met) fun _ => .ite ?_ (ih _)
        exact .ite (.bind (rule.removes c.key c.ep met) fun _ => .bind write fun _ => ih _)
          (.bind write fun _ => ih _)

theorem diversifyFrom (buckets : List Nat) : Act.Keeps I (Node.diversifyFrom w buckets) := by
  induction buckets with
  | nil => exact .pure _
  | cons i rest ih =>
    refine .bind .get fun s => .ite (.bind (fun s h => rule.still s _ h rfl rfl rfl) fun _ => ?_) ih
    exact .bind rule.begin fun _ => ih

/-! ## Receiving -/

theorem addContact {ep : EndpointProto} (offered : known k ep) :
    Act.Keeps I (Node.addContact w k ep) := by
  refine .bind rule.updateTime fun now => .get_bind fun s h => ?_
  rw [Act.exec_bind, Act.exec_ofExcept]
  cases added : s.contactList.addContact w.evalOrder w.pastEnd now k ep with
  | error e => exact h
  | ok b => exact rule.add s _ _ _ k ep b h offered added

theorem handleReplyStore : Act.Keeps I (Node.handleReplyStore m) := by
  have forget := Act.Keeps.modify (f := fun s : Node => { s with
    mapStoreCheckVal := Function.update s.mapStoreCheckVal m.token none }) fun s h =>
      rule.still s _ h rfl rfl rfl
  refine .bind .get fun s => ?_
  split
  · exact .pure _
  · exact .ite (.bind (.throw _) fun _ => forget) forget

theorem handleReplyFindNode : Act.Keeps I (Node.handleReplyFindNode w m) := by
  refine .bind .get fun s => ?_
  split
  · exact .pure _
  · exact .bind (rule.pingContacts _) fun _ => rule.replyIterative

theorem handleReplyFindValue : Act.Keeps I (Node.handleReplyFindValue w m) := by
  refine .bind .get fun s => ?_
  split
  · exact .pure _
  · split
    · exact .bind (.ofExcept _) fun _ => rule.eraseSearch
    · exact .bind (.throw _) fun _ => rule.eraseSearch

/-- The answer to a ping makes its sender a contact. -/
theorem handleReplyPing (offered : known m.fromId s.senderEndpoint.proto) (h : I s) :
    I (Act.exec (Node.handleReplyPing w m) s).2 := by
  have forget := Act.Keeps.modify (f := fun s : Node => { s with
    mapPingTtl := Function.update s.mapPingTtl m.token none }) fun s h => rule.still s _ h rfl rfl rfl
  rw [Node.handleReplyPing, Act.exec_bind_ok (Act.exec_get s)]
  cases s.mapPingTtl m.token with
  | none => exact h
  | some sent =>
    have later := rule.updateTime s h
    simp only [Act.exec_bind_ok (exec_updateTime w s)]
    rw [exec_updateTime] at later
    split
    · rw [Act.exec_bind_ok (Act.exec_get _), endpointToProto_eq,
        Act.exec_bind_ok (Act.exec_ofExcept _ _)]
      exact Act.Keeps.bind (rule.addContact offered) (fun _ => forget) _ later
    · exact forget _ later

omit rule in
/-- A new contact is nothing to the storage. -/
theorem storage_addContact {ep : EndpointProto} (c : Conn Tables) :
    Act.Keeps (fun s : Node => s.dbStorage = c) (Node.addContact w k ep) :=
  .bind (fun _ same => same) fun _ => .bind .get fun _ => .bind (.ofExcept _) fun _ =>
    .modify fun _ same => same

/-- A message from a `known` sender keeps the invariant, if looking for a value in the storage
the node has does. -/
theorem handleMessageFrom (offered : known m.fromId s.senderEndpoint.proto)
    (finds : m.type = .sendFindValue → ∀ s', I s' → s'.dbStorage = s.dbStorage →
      I (Act.exec (Node.handleSendFindValue w m) s').2) (h : I s) :
    I (Act.exec (Node.handleMessageFrom w m s.senderEndpoint.proto) s).2 := by
  unfold Node.handleMessageFrom Node.handleMessage
  cases type : m.type with
  | sendPing => exact Act.Keeps.bind (rule.addContact offered) (fun _ => rule.replyPing) s h
  | sendStore => exact Act.Keeps.bind (rule.addContact offered) (fun _ => rule.handleSendStore) s h
  | sendFindNode => exact Act.Keeps.bind (rule.addContact offered) (fun _ => rule.replyFindNode) s h
  | sendFindValue =>
    have met := rule.addContact offered s h
    have fixed : Act.Keeps (fun s' => s'.dbStorage = s.dbStorage)
        (Node.addContact w m.fromId s.senderEndpoint.proto) := storage_addContact _
    have same := fixed s rfl
    simp only []
    rw [Act.exec_bind]
    generalize Act.exec (Node.addContact w m.fromId s.senderEndpoint.proto) s = r at met same
    obtain ⟨_ | _, s'⟩ := r
    · exact met
    · exact finds type s' met same
  | replyPing => exact rule.handleReplyPing offered h
  | replyStore => exact rule.handleReplyStore s h
  | replyFindNode => exact rule.handleReplyFindNode s h
  | replyFindValue => exact rule.handleReplyFindValue s h
  | none => exact h

theorem handleReceive {ep : Endpoint} {body : List UInt8}
    (offered : known (w.parse body).2.fromId ep.proto)
    (finds : (w.parse body).2.type = .sendFindValue → ∀ s', I s' → s'.dbStorage = s.dbStorage →
      I (Act.exec (Node.handleSendFindValue w (w.parse body).2) s').2) (h : I s) :
    I (Act.exec (Node.handleReceive w ep body) s).2 := by
  rw [Node.handleReceive, Act.exec_rethrowAs_state, Act.exec_bind_ok (Act.exec_modify _ _),
    endpointToProto_eq, Act.exec_bind_ok (Act.exec_ofExcept _ _)]
  exact rule.handleMessageFrom (s := { s with senderEndpoint := ep }) offered finds
    (rule.still s _ h rfl rfl rfl)

theorem handleDisconnect (ep : Endpoint) : Act.Keeps I (Node.handleDisconnect ep) := by
  refine .bind (.ofExcept _) fun epp => .get_bind fun s h => ?_
  rw [Act.exec_bind, Act.exec_ofExcept]
  cases removed : s.contactList.removeContact epp with
  | error e => exact h
  | ok b =>
    obtain ⟨left, done, after⟩ := bind_ok_iff.mp removed
    obtain rfl := Except.ok.inj after
    exact Bucket.removeFrom_induction
      (J := fun es => I { s with contactList := { s.contactList with entries := es } })
      (fun _ pos kept => rule.drop _ pos kept) h done

/-- A node that starts pings the endpoints its backup tells. -/
theorem pingBackup (entries : List String)
    (dials : ∀ entry ∈ entries, ∀ address port, stringToEndpointPair entry = .ok (address, port) →
      dialled ⟨address, port⟩) : Act.Keeps I (Node.pingBackup w entries) := by
  induction entries with
  | nil => exact .pure _
  | cons entry rest ih =>
    obtain ⟨first, later⟩ := List.forall_mem_cons.mp dials
    exact .ofExcept_bind fun ⟨address, port⟩ cut => .bind rule.randomToken fun _ =>
      .bind (.catchStd (rule.sendPingTo (first address port cut))) fun _ => ih later

theorem restoreFromBackup {contacts : Contacts}
    (dials : ∀ row ∈ contacts, ∀ address port, stringToEndpointPair row.2 = .ok (address, port) →
      dialled ⟨address, port⟩) (s : Node) (backup : s.dbBackup.tables = contacts) (h : I s) :
    I (Act.exec (Node.restoreFromBackup w) s).2 := by
  have kept := rule.reads s h
  rw [Node.restoreFromBackup, Act.exec_bind]
  rw [Node.onBackup, Act.exec_zoom] at kept ⊢
  cases read : Act.exec (DbKeyValue.listValue w.backup) s.dbBackup with
  | mk r c =>
    rw [read] at kept
    cases r with
    | error e => exact kept
    | ok l =>
      refine rule.pingBackup l (fun entry listed address port cut => ?_) _ kept
      obtain ⟨row, there, rfl⟩ := List.mem_map.mp (DbKeyValue.listValue_subset read listed)
      exact dials row (backup ▸ there) address port cut

end Posts

section Run

variable {w : World} {I : Node → Prop} {fit : MessageProto → Prop} {dialled : EndpointProto → Prop}
  {known : String → EndpointProto → Prop} {s : Node}

/-- What an input makes known to a node: the endpoint it is told to ping is `dialled`, the sender
of a packet is `known`, and looking for a value keeps the invariant. -/
def Input.Posted (w : World) (I : Node → Prop) (dialled : EndpointProto → Prop)
    (known : String → EndpointProto → Prop) (s : Node) : Input → Prop
  | receive ep body =>
    known (w.parse body).2.fromId ep.proto ∧
      ((w.parse body).2.type = .sendFindValue → ∀ s', I s' → s'.dbStorage = s.dbStorage →
        I (Act.exec (Node.handleSendFindValue w (w.parse body).2) s').2)
  | pingEndpoint epp _ => dialled epp
  | _ => True

/-- Whatever runs next and however it ends, the invariant holds again. -/
theorem Posts.run (rule : Posts w I fit dialled known) (input : Input)
    (posted : input.Posted w I dialled known s) (h : I s) : I (Act.exec (input.run w) s).2 := by
  cases input with
  | receive ep body => exact rule.handleReceive posted.1 posted.2 h
  | disconnect ep => exact rule.handleDisconnect ep s h
  | iterativeStore k b => exact rule.begin s h
  | iterativeFindNode k => exact Act.Keeps.rethrowAs rule.begin s h
  | iterativeFindValue k c hint => exact Act.Keeps.rethrowAs rule.begin s h
  | pingEndpoint epp t => exact rule.sendPingTo posted s h
  | ping toId t => exact rule.sendPing s h
  | setMaxRecord n => exact rule.still s _ h rfl rfl rfl
  | refreshContacts => exact Act.Keeps.rethrowAs (.bind .get fun _ => rule.refreshFrom _ _) s h
  | diversify => exact Act.Keeps.rethrowAs (rule.diversifyFrom _) s h
  | storedHeaders => exact Act.Keeps.bind (.rethrowAs (rule.onStorage _)) (fun _ => .pure _) s h
  | cleanHeader checkTime h' =>
    exact Act.Keeps.rethrowAs
      (.ite (rule.onStorage _) (.bind (rule.onStorage _) fun _ => rule.begin)) s h

end Run

/-! ## The addresses of what was sent -/

theorem delivered_mem_handOver {w : World} {m m' : MessageProto} {epp : EndpointProto}
    {uep : Endpoint} (there : .delivered m' uep ∈ handOver w m epp) :
    m' = m ∧ w.resolve epp = some uep := by
  rw [handOver] at there
  rcases List.mem_cons.mp there with same | there
  · cases same
  · split at there
    · cases there
    · rename_i at'
      split at there
      · cases List.mem_singleton.mp there
      · obtain ⟨rfl, rfl⟩ := Event.delivered.inj (List.mem_singleton.mp there)
        exact ⟨rfl, at'⟩

/-- Where a message of the node `own` may be delivered: a ping where it was told to ping, and
anything at a contact. -/
def Addressed (w : World) (dialled : EndpointProto → Prop) (known : String → EndpointProto → Prop)
    (own : String) (m : MessageProto) (uep : Endpoint) : Prop :=
  (m.type = .sendPing ∧ ∃ epp, dialled epp ∧ w.resolve epp = some uep) ∨
    m.toId ≠ own ∧ ∃ ep, known m.toId ep ∧ w.resolve ep = some uep

/-- The contacts of the node `own` are `known`, all messages it means to send are of an `allowed`
type, and what it has sent names it and went to where it may. -/
structure Posted (w : World) (allowed : MessageType → Prop) (dialled : EndpointProto → Prop)
    (known : String → EndpointProto → Prop) (own : String) (s : Node) : Prop where
  id : s.id = own
  table : Bucket.Reached (fun _ => True) own s.contactList
  contacts : ∀ e ∈ s.contactList.entries, known e.2.key e.2.ep
  meant : ∀ e ∈ s.log, allowed e.message.type
  sent : ∀ m uep, .delivered m uep ∈ s.log → m.fromId = own ∧ Addressed w dialled known own m uep

namespace Posted

variable {w : World} {allowed : MessageType → Prop} {dialled : EndpointProto → Prop}
  {known : String → EndpointProto → Prop} {own : String} {s : Node}

theorem initial (key : BitVec keySize) (maxRecords : Nat) (storage : Tables) (contacts : Contacts) :
    Posted w allowed dialled known (keyToString key)
      (Node.initial key maxRecords storage contacts) where
  id := rfl
  table := .new
  contacts _ member := by cases member
  meant _ member := by cases member
  sent _ _ member := by cases member

/-- More is seen of the node, about one message. -/
theorem logged {m : MessageProto} (h : Posted w allowed dialled known own s)
    (fit : m.fromId = own ∧ allowed m.type) {es : List Event} (about : ∀ e ∈ es, e.message = m)
    (new : ∀ uep, .delivered m uep ∈ es → Addressed w dialled known own m uep) :
    Posted w allowed dialled known own (s.logged es) where
  id := h.id
  table := h.table
  contacts := h.contacts
  meant e there := by
    rcases List.mem_append.mp there with old | seen
    · exact h.meant e old
    · rw [about e seen]
      exact fit.2
  sent m' uep there := by
    rcases List.mem_append.mp there with old | seen
    · exact h.sent m' uep old
    · obtain rfl : m' = m := about _ seen
      exact ⟨fit.1, new uep seen⟩

/-- More may be dialled and known. -/
theorem mono {dialled' : EndpointProto → Prop} {known' : String → EndpointProto → Prop}
    (h : Posted w allowed dialled known own s) (dials : ∀ epp, dialled epp → dialled' epp)
    (knows : ∀ k ep, known k ep → known' k ep) : Posted w allowed dialled' known' own s := by
  refine ⟨h.id, h.table, fun e member => knows _ _ (h.contacts e member), h.meant, fun m uep there => ?_⟩
  obtain ⟨sender, ⟨ping, epp, told, at'⟩ | ⟨other, ep, met, at'⟩⟩ := h.sent m uep there
  · exact ⟨sender, .inl ⟨ping, epp, dials epp told, at'⟩⟩
  · exact ⟨sender, .inr ⟨other, ep, knows _ _ met, at'⟩⟩

theorem post {m : MessageProto} (h : Posted w allowed dialled known own s)
    (fit : m.fromId = own ∧ allowed m.type) :
    Posted w allowed dialled known own (Act.exec (sendMessage w m) s).2 := by
  by_cases zero : m.toId = zeroId
  · have asked : Act.exec (sendMessage w m) s = (.error .assertion, s.logged [.request m]) := by
      rw [sendMessage, Act.exec_bind_ok (exec_record _ _), assertThat_neg (not_not.mpr zero),
        Act.exec_bind_error (Act.exec_ofExcept _ _)]
    rw [asked]
    exact h.logged fit (fun e seen => List.mem_singleton.mp seen ▸ rfl) fun uep seen => by simp at seen
  · rw [exec_sendMessage zero h.table.filed.named]
    refine h.logged fit (fun e seen => message_of_mem_sendEvents seen) fun uep seen => ?_
    obtain ⟨-, other, c, found, at', -⟩ := delivered_mem_sendEvents.mp seen
    obtain ⟨same, e, listed, rfl⟩ := Bucket.mem_of_lookup found
    rw [h.id] at other
    exact .inr ⟨other, e.2.ep, same ▸ h.contacts e listed, at'⟩

theorem dial {m : MessageProto} {epp : EndpointProto} (h : Posted w allowed dialled known own s)
    (sender : m.fromId = own) (ping : m.type = .sendPing) (may : allowed .sendPing)
    (dials : dialled epp) :
    Posted w allowed dialled known own (Act.exec (sendMessageTo w m epp) s).2 := by
  have fit : m.fromId = own ∧ allowed m.type := ⟨sender, ping ▸ may⟩
  by_cases named : epp.Named
  · rw [exec_sendMessageTo named]
    refine h.logged fit (fun e seen => message_of_mem_handOver seen) fun uep seen => ?_
    exact .inl ⟨ping, epp, dials, (delivered_mem_handOver seen).2⟩
  · have handed : Act.exec (sendMessageTo w m epp) s = (.error .assertion, s.logged [.handed m epp]) := by
      rw [sendMessageTo, Act.exec_bind_ok (exec_record _ _), Search.assertNamed_error named,
        Act.exec_bind_error (Act.exec_ofExcept _ _)]
    rw [handed]
    exact h.logged fit (fun e seen => List.mem_singleton.mp seen ▸ rfl) fun uep seen => by simp at seen

theorem posts (may : ∀ type ≠ .replyFindValue, allowed type) :
    Posts w (Posted w allowed dialled known own) (fun m => m.fromId = own ∧ allowed m.type) dialled
      known where
  still s s' h core _ log := by
    simp only [Node.core, Prod.mk.injEq] at core
    obtain ⟨id, list, -⟩ := core
    exact ⟨id.trans h.id, list ▸ h.table, list ▸ h.contacts, log ▸ h.meant, log ▸ h.sent⟩
  search s f h := ⟨h.id, h.table, h.contacts, h.meant, h.sent⟩
  own s m h sender type := ⟨sender.trans h.id, may _ type⟩
  post s m h fit := h.post fit
  dial s m epp h sender ping dials := h.dial (sender.trans h.id) ping (may _ nofun) dials
  add s order pastEnd now k ep b h offered added :=
    ⟨h.id, h.table.add trivial added, Bucket.forall_added h.table.filed.named h.contacts offered added,
      h.meant, h.sent⟩
  drop s pos h := ⟨h.id, h.table.erase pos,
    fun e member => h.contacts e (List.mem_of_mem_eraseIdx member), h.meant, h.sent⟩
  look s k h := ⟨h.id, h.table.look k,
    fun e member => h.contacts e (by rwa [Bucket.buildProximity_entries] at member), h.meant, h.sent⟩
  listed s h := h.contacts
  reads := .zoom fun s h => ⟨h.id, h.table, h.contacts, h.meant, h.sent⟩
  finds _ _ _ := .zoom fun s h => ⟨h.id, h.table, h.contacts, h.meant, h.sent⟩
  removes _ _ _ := .zoom fun s h => ⟨h.id, h.table, h.contacts, h.meant, h.sent⟩
  files _ _ _ := .zoom fun s h => ⟨h.id, h.table, h.contacts, h.meant, h.sent⟩

end Posted

end Node

end MiniDht
