import MiniDht.Bucket.Entries
import MiniDht.Node.Run
import MiniDht.Node.Sent

/-!
# Rules for invariants

Which steps an invariant of a node has to withstand, and what then follows for whole
calls, whatever way they end. `Carries` is enough for everything that only sends; `Notes`
adds the requests whose answers are waited for, `Allows` the searches and the contact list.
-/

namespace MiniDht

open Lib

namespace Node

variable {I : Node → Prop} {sent : MessageProto → Prop} {known : String → EndpointProto → Prop}

/-- An invariant that stands the clock, the random numbers and the sending of messages that
are `sent`, among which are those the node makes up of its id and its contacts. -/
structure Carries (I : Node → Prop) (sent : MessageProto → Prop) : Prop where
  tick : ∀ s : Node, I s → I { s with ticks := s.ticks + 1 }
  draw : ∀ (s : Node) (n : Nat), I s → I { s with draws := s.draws + n }
  log : ∀ (s : Node) (e : Event), I s → sent e.message → I (s.logged [e])
  own : ∀ (s : Node) (m : MessageProto), I s → m.fromId = s.id →
    m.contactList ⊆ s.contactList.entries.map Prod.snd → m.type ≠ .sendPing → sent m

namespace Carries

variable {w : World} {t : Token} {toId queryId hint : String} {cbf : DataItemProto}
  {m : MessageProto} (rule : Carries I sent)
include rule

theorem updateTime : Act.Keeps I (Node.updateTime w) := rule.tick

theorem randomToken : Act.Keeps I (Node.randomToken w) := fun s => rule.draw s tokenSize

theorem record {e : Event} (fit : sent e.message) : Act.Keeps I (Node.record e) :=
  .modify fun s h => rule.log s e h fit

theorem sendMessageTo (fit : sent m) (epp : EndpointProto) :
    Act.Keeps I (Node.sendMessageTo w m epp) := by
  refine .bind (rule.record fit) fun _ => .bind (.ofExcept _) fun _ => ?_
  split
  · exact .pure _
  · exact .bind (.ofExcept _) fun _ => .ite (rule.record fit) (rule.record fit)

theorem sendMessage (fit : sent m) : Act.Keeps I (Node.sendMessage w m) := by
  refine .bind (rule.record fit) fun _ => .bind (.ofExcept _) fun _ => .bind .get fun s => ?_
  refine .ite (.pure _) ?_
  split
  · exact .throw _
  · exact rule.sendMessageTo fit _

omit rule in
theorem checked {body : NodeM Unit} (inner : Act.Keeps I body) :
    Act.Keeps I (Node.checked toId body) :=
  .bind (.ofExcept _) fun _ => .catchStd inner

/-- A message without contacts that the node builds in its present state goes out. -/
theorem built {x : Node → NodeM Unit} {m : Node → MessageProto} (id : ∀ s, (m s).fromId = s.id)
    (bare : ∀ s, (m s).contactList = []) {type : MessageType} (typed : ∀ s, (m s).type = type)
    (other : type ≠ .sendPing) (send : ∀ s, sent (m s) → Act.Keeps I (x s)) :
    Act.Keeps I ((MonadState.get : NodeM Node) >>= x) :=
  .get_bind fun s h =>
    have fit := rule.own s (m s) h (id s) (by rw [bare]; exact List.nil_subset _)
      (by rw [typed]; exact other)
    send s fit s h

theorem sendFindNode : Act.Keeps I (Node.sendFindNode w toId queryId t) :=
  checked <| rule.built (m := fun s => findNodeMessage s.id toId queryId t) (fun _ => rfl)
    (fun _ => rfl) (fun _ => rfl) (by decide) fun _ fit => rule.sendMessage fit

theorem sendFindValue : Act.Keeps I (Node.sendFindValue w toId queryId t hint) :=
  checked <| rule.built (m := fun s => findValueMessage s.id toId queryId t hint) (fun _ => rfl)
    (fun _ => rfl) (fun _ => rfl) (by decide) fun _ fit => rule.sendMessage fit

theorem replyPing : Act.Keeps I (Node.replyPing w toId t) :=
  checked <| rule.built
    (m := fun s => { type := .replyPing, fromId := s.id, toId := toId, token := t })
    (fun _ => rfl) (fun _ => rfl) (fun _ => rfl) (by decide) fun _ fit => rule.sendMessage fit

theorem replyStore : Act.Keeps I (Node.replyStore w toId t cbf) :=
  checked <| rule.built
    (m := fun s => { type := .replyStore, fromId := s.id, toId := toId, token := t,
                     checkVal := .ofNat cbf.data.length })
    (fun _ => rfl) (fun _ => rfl) (fun _ => rfl) (by decide) fun _ fit => rule.sendMessage fit

omit rule in
/-- Every packet of a reply carries some of the contacts. -/
theorem sendContacts (rule : Carries I sent) {contacts : List ContactProto}
    (fit : ∀ lc ⊆ contacts, sent { m with contactList := lc }) {begun lc : List ContactProto}
    (first : begun ⊆ contacts) (rest : lc ⊆ contacts) :
    Act.Keeps I (Node.sendContacts w { m with contactList := begun } lc) := by
  induction lc generalizing begun with
  | nil => exact .pure _
  | cons c lc ih =>
    have here : begun ++ [c] ⊆ contacts :=
      List.append_subset.mpr ⟨first, by simpa using rest List.mem_cons_self⟩
    have after : lc ⊆ contacts := fun d member => rest (List.mem_cons_of_mem c member)
    exact .ite (.bind (rule.sendMessage (fit _ here)) fun _ => ih (List.nil_subset _) after)
      (ih here after)

theorem replyFindNode : Act.Keeps I (Node.replyFindNode w toId t) :=
  checked <| .get_bind fun s h =>
    sendContacts rule
      (m := { type := .replyFindNode, fromId := s.id, token := t, toId := toId })
      (fun _ some => rule.own s _ h rfl some (show MessageType.replyFindNode ≠ .sendPing by decide))
      (List.nil_subset _) (List.Subset.refl _) s h

section Storing

variable (stored : ∀ (s : Node) (c : Conn Tables), I s → I { s with dbStorage := c })
include stored

omit rule in
theorem onStorage {α : Type} (x : DbM Tables α) : Act.Keeps I (Node.onStorage x) :=
  .zoom fun s h => stored s _ h

omit rule in
theorem makeRoom (fuel : Nat) : Act.Keeps I (Node.makeRoom w fuel) := by
  induction fuel with
  | zero => exact .throw _
  | succ fuel ih =>
    exact .bind (onStorage stored _) fun _ => .bind .get fun _ =>
      .ite (.pure _) <| .bind (onStorage stored _) fun _ => ih

theorem refreshTitle (k : String) (d : DataItemProto) (ld : List DataItemProto) :
    Act.Keeps I (Node.refreshTitle w k d ld) := by
  induction ld with
  | nil => exact .pure _
  | cons item rest ih =>
    exact .ite (.bind rule.updateTime fun _ =>
      .ite (.bind (onStorage stored _) fun _ => .pure _) (.pure _)) ih

theorem insertDb (k : String) (d : DataItemProto) : Act.Keeps I (Node.insertDb w k d) := by
  refine .bind (onStorage stored _) fun _ => .ite ?_ ?_
  · exact .bind .get fun _ => .bind (makeRoom stored _) fun _ => onStorage stored _
  · exact .bind (onStorage stored _) fun _ => .bind (rule.refreshTitle stored k d _) fun _ =>
      .ite (.pure _) (onStorage stored _)

theorem handleSendStore : Act.Keeps I (Node.handleSendStore w m) :=
  .bind rule.updateTime fun _ => .bind (rule.insertDb stored _ _) fun _ => rule.replyStore

theorem replyFindValue : Act.Keeps I (Node.replyFindValue w toId t hint) := by
  refine checked <| .get_bind fun s h => Act.Keeps.bind (onStorage stored _) (fun ld => ?_) s h
  have fit (items : List DataItemProto) : sent
      { type := .replyFindValue, fromId := s.id, token := t, toId := toId, dataItemList := items } :=
    rule.own s _ h rfl (List.nil_subset _) (show MessageType.replyFindValue ≠ .sendPing by decide)
  exact .ite (rule.sendMessage (fit _)) (.pure _)

theorem handleSendFindValue : Act.Keeps I (Node.handleSendFindValue w m) :=
  .bind (onStorage stored _) fun _ => .ite (rule.replyFindValue stored) rule.replyFindNode

end Storing

end Carries

/-- An invariant that also stands the requests of which the node notes that they are to be
answered, and the end of these notes. -/
structure Notes (w : World) (I : Node → Prop) (sent : MessageProto → Prop) : Prop
    extends Carries I sent where
  sendPing : ∀ {toId : String} {t : Token}, Act.Keeps I (Node.sendPing w toId t)
  sendPingTo : ∀ (epp : EndpointProto) {t : Token}, Act.Keeps I (Node.sendPingTo w epp t)
  sendStore : ∀ {toId queryId : String} {cbf : DataItemProto} {t : Token},
    Act.Keeps I (Node.sendStore w toId queryId cbf t)
  answered : ∀ (s : Node) (t : Token), I s →
    I { s with mapPingTtl := Function.update s.mapPingTtl t none }
  stored : ∀ (s : Node) (t : Token), I s →
    I { s with mapStoreCheckVal := Function.update s.mapStoreCheckVal t none }

namespace Notes

variable {w : World} {m : MessageProto}

/-- An invariant that does not look at the notes, and lets all the node makes up be sent. -/
theorem of_book
    (book : ∀ (s : Node) (ticks draws : Nat) (pings : Token → Option Ptime)
      (sizes : Token → Option UInt64), I s →
      I { s with ticks := ticks, draws := draws, mapPingTtl := pings, mapStoreCheckVal := sizes })
    (log : ∀ (s : Node) (e : Event), I s → sent e.message → I (s.logged [e]))
    (own : ∀ (s : Node) (m : MessageProto), I s → m.fromId = s.id →
      m.contactList ⊆ s.contactList.entries.map Prod.snd → sent m) : Notes w I sent := by
  have carries : Carries I sent :=
    { tick := fun s => book s (s.ticks + 1) s.draws s.mapPingTtl s.mapStoreCheckVal
      draw := fun s n => book s s.ticks (s.draws + n) s.mapPingTtl s.mapStoreCheckVal
      log := log
      own := fun s m h id some _ => own s m h id some }
  have bare (s : Node) (m : MessageProto) (h : I s) (id : m.fromId = s.id)
      (none : m.contactList = []) : sent m := own s m h id (by rw [none]; exact List.nil_subset _)
  have note (t : Token) : Act.Keeps I (Node.notePing w t) :=
    .bind carries.updateTime fun _ => .modify fun s => book s s.ticks s.draws _ s.mapStoreCheckVal
  refine ⟨carries, ?_, ?_, ?_, ?_, ?_⟩
  · intro toId t
    exact Carries.checked <| .get_bind fun s h => Act.Keeps.bind (note t)
      (fun _ => carries.sendMessage (bare s _ h rfl rfl)) s h
  · intro epp t
    exact .bind (.ofExcept _) fun _ => .catchStd <| .get_bind fun s h => Act.Keeps.bind (note t)
      (fun _ => carries.sendMessageTo (bare s _ h rfl rfl) epp) s h
  · intro toId queryId cbf t
    exact Carries.checked <| .get_bind fun s h => Act.Keeps.bind
      (.modify fun s => book s s.ticks s.draws s.mapPingTtl _)
      (fun _ => carries.sendMessage (bare s _ h rfl rfl)) s h
  · exact fun s t => book s s.ticks s.draws _ s.mapStoreCheckVal
  · exact fun s t => book s s.ticks s.draws s.mapPingTtl _

variable (rule : Notes w I sent)
include rule

theorem pingContacts (lc : List ContactProto) : Act.Keeps I (Node.pingContacts w lc) := by
  induction lc with
  | nil => exact .pure _
  | cons c rest ih =>
    exact .bind (.ofExcept _) fun _ => .bind rule.randomToken fun _ =>
      .bind rule.sendPing fun _ => ih

theorem pingBackup (entries : List String) : Act.Keeps I (Node.pingBackup w entries) := by
  induction entries with
  | nil => exact .pure _
  | cons entry rest ih =>
    exact .bind (.ofExcept _) fun _ => .bind rule.randomToken fun _ =>
      .bind (.catchStd (rule.sendPingTo _)) fun _ => ih

theorem handleReplyStore : Act.Keeps I (Node.handleReplyStore m) := by
  have forget := Act.Keeps.modify (f := fun s : Node => { s with
    mapStoreCheckVal := Function.update s.mapStoreCheckVal m.token none }) fun s =>
      rule.stored s m.token
  refine .bind .get fun s => ?_
  split
  · exact .pure _
  · exact .ite (.bind (.throw _) fun _ => forget) forget

end Notes

/-- An invariant that also stands searches whose contacts are `known`, and a contact list
to which only `known` contacts are added. -/
structure Allows (w : World) (I : Node → Prop) (sent : MessageProto → Prop)
    (known : String → EndpointProto → Prop) : Prop extends Notes w I sent where
  backup : ∀ (s : Node) (c : Conn Contacts), I s → I { s with dbBackup := c }
  search : ∀ (s : Node) (t : Token) (q : Search), I s →
    (∀ c ∈ q.shortList, known c.key c.ep) →
    I { s with mapSearch := Function.update s.mapSearch t (some q) }
  done : ∀ (s : Node) (t : Token), I s →
    I { s with mapSearch := Function.update s.mapSearch t none }
  held : ∀ (s : Node) (t : Token) (q : Search), I s → s.mapSearch t = some q →
    ∀ c ∈ q.shortList, known c.key c.ep
  add : ∀ (s : Node) (order : EvalOrder) (pastEnd : UInt64) (now : Ptime) (k : String)
    (ep : EndpointProto) (b : Bucket), I s → known k ep →
    s.contactList.addContact order pastEnd now k ep = .ok b → I { s with contactList := b }
  drop : ∀ (s : Node) (pos : Nat), I s →
    I { s with contactList := { s.contactList with entries := s.contactList.entries.eraseIdx pos } }
  look : ∀ (s : Node) (k : String), I s →
    I { s with contactList := s.contactList.buildProximity k }
  listed : ∀ (s : Node), I s → ∀ e ∈ s.contactList.entries, known e.2.key e.2.ep

namespace Allows

variable {w : World} {t : Token} {k : String} {ep : EndpointProto} {m : MessageProto}
  {lc : List ContactProto} (rule : Allows w I sent known)
include rule

theorem addContact (offered : known k ep) : Act.Keeps I (Node.addContact w k ep) := by
  refine .bind rule.updateTime fun now => .get_bind fun s h => ?_
  rw [Act.exec_bind, Act.exec_ofExcept]
  cases added : s.contactList.addContact w.evalOrder w.pastEnd now k ep with
  | error e => exact h
  | ok b => exact rule.add s _ _ _ k ep b h offered added

theorem onBackup {α : Type} (x : DbM Contacts α) : Act.Keeps I (Node.onBackup x) :=
  .zoom fun s h => rule.backup s _ h

theorem putSearch {q : Search} (held : ∀ c ∈ q.shortList, known c.key c.ep) :
    Act.Keeps I (Node.putSearch t q) :=
  .modify fun s h => rule.search s t q h held

theorem eraseSearch : Act.Keeps I (Node.eraseSearch t) :=
  .modify fun s h => rule.done s t h

/-! ## Searching -/

/-- What is done with the search under a token may use that its contacts are known. -/
theorem withSearch {α : Type} {x : Search → NodeM α}
    (rest : ∀ q, (∀ c ∈ q.shortList, known c.key c.ep) → Act.Keeps I (x q)) :
    Act.Keeps I (Node.searchAt t >>= x) := by
  intro s h
  rw [Act.exec_bind]
  cases here : s.mapSearch t with
  | none =>
    have missing : Act.exec (Node.searchAt t) s = (.error .undefined, s) := by
      rw [Node.searchAt, Act.exec_bind_ok (Act.exec_get s), here]
      rfl
    rw [missing]
    exact h
  | some q =>
    have found : Act.exec (Node.searchAt t) s = (.ok q, s) := by
      rw [Node.searchAt, Act.exec_bind_ok (Act.exec_get s), here]
      rfl
    rw [found]
    exact rest q (rule.held s t q h here) s h

theorem askNodes {send : String → NodeM Unit} (sends : ∀ key, Act.Keeps I (send key)) (n : Nat) :
    Act.Keeps I (Node.askNodes t send n) := by
  induction n with
  | zero => exact .pure _
  | succ n ih =>
    refine rule.withSearch fun _ _ => .bind (.ofExcept _) fun _ => .ite (.pure _) ?_
    refine rule.withSearch fun q held => .ofExcept_bind fun ⟨key, q'⟩ picked => ?_
    obtain ⟨_, -, same⟩ := bind_ok_iff.mp picked
    obtain ⟨rfl, rfl⟩ := Prod.mk.inj (Except.ok.inj same)
    exact .bind (rule.putSearch held) fun _ => .bind (sends _) fun _ => ih

theorem storeAll (fuel : Nat) : Act.Keeps I (Node.storeAll w t k fuel) := by
  induction fuel with
  | zero => exact .throw _
  | succ fuel ih =>
    refine rule.withSearch fun _ _ => .bind (.ofExcept _) fun _ => .ite (.pure _) ?_
    refine rule.withSearch fun q held => .ofExcept_bind fun ⟨key, q'⟩ picked => ?_
    obtain ⟨_, -, same⟩ := bind_ok_iff.mp picked
    obtain ⟨rfl, rfl⟩ := Prod.mk.inj (Except.ok.inj same)
    exact .bind (rule.putSearch held) fun _ => .bind rule.sendStore fun _ => ih

omit rule in
theorem callNodeCallback (q : Search) : Act.Keeps I (Node.callNodeCallback w q) := by
  unfold Node.callNodeCallback
  split
  · exact .ofExcept _
  · exact .throw _

omit rule in
/-- A short list holds only what was on it and what was offered. -/
theorem known_updateList {q q' : Search} {b : Bool} (held : ∀ c ∈ q.shortList, known c.key c.ep)
    (offered : ∀ c ∈ lc, known c.key c.ep) (done : q.updateList lc = .ok (b, q')) :
    ∀ c ∈ q'.shortList, known c.key c.ep := by
  rw [Search.updateList_ok done]
  intro c member
  rw [Search.offer] at member
  split at member
  · exact held c member
  · rcases Search.merged_subset member with old | new
    · exact held c old
    · exact offered c new

section Rounds

variable (offered : ∀ c ∈ lc, known c.key c.ep)
include offered

/-- The beginning of a round: the short list is brought up to date. -/
theorem updated {x : Bool × Search → NodeM Unit}
    (rest : ∀ b q, (∀ c ∈ q.shortList, known c.key c.ep) → Act.Keeps I (x (b, q))) :
    Act.Keeps I (Node.searchAt t >>= fun q => Act.ofExcept (q.updateList lc) >>= x) :=
  rule.withSearch fun _ held => .ofExcept_bind fun ⟨b, q⟩ done =>
    rest b q (known_updateList held offered done)

theorem replyIterativeNodeSearch : Act.Keeps I (Node.replyIterativeNodeSearch w lc t k) :=
  rule.updated offered fun _ _ held => .bind (rule.putSearch held) fun _ =>
    .ite
      (.ite (.bind (.catchStd (callNodeCallback _)) fun _ => rule.eraseSearch) rule.eraseSearch)
      (rule.askNodes (fun _ => rule.sendFindNode) _)

theorem replyIterativeValueSearch : Act.Keeps I (Node.replyIterativeValueSearch w lc t k) :=
  rule.updated offered fun _ _ held => .bind (rule.putSearch held) fun _ =>
    rule.askNodes (fun _ => rule.sendFindValue) _

theorem replyIterativeStoreSearch : Act.Keeps I (Node.replyIterativeStoreSearch w lc t k) :=
  .bind (.ofExcept _) fun _ => rule.updated offered fun _ _ held =>
    .bind (rule.putSearch held) fun _ =>
      .ite (.bind (rule.storeAll _) fun _ => rule.eraseSearch)
        (rule.askNodes (fun _ => rule.sendFindNode) _)

theorem replyIterative : Act.Keeps I (Node.replyIterative w lc t k) := by
  refine rule.withSearch fun q _ => ?_
  cases q.searchType with
  | node => exact rule.replyIterativeNodeSearch offered
  | value => exact rule.replyIterativeValueSearch offered
  | store => exact rule.replyIterativeStoreSearch offered

end Rounds

omit rule in
/-- A search starts from contacts of the list. -/
theorem proximityContacts_subset {b : Bucket} {ks : List String}
    (done : proximityContacts b ks = .ok lc) :
    ∀ c ∈ lc, ∃ e ∈ b.entries, e.2.key = c.key ∧ e.2.ep = c.ep := by
  induction ks generalizing lc with
  | nil =>
    cases done
    exact fun c member => by cases member
  | cons key ks ih =>
    rw [proximityContacts] at done
    split at done
    · exact ih done
    · obtain ⟨ep, read, done⟩ := bind_ok_iff.mp done
      obtain ⟨_, -, done⟩ := bind_ok_iff.mp done
      obtain ⟨lc', rest, same⟩ := bind_ok_iff.mp done
      obtain rfl := Except.ok.inj same
      intro c member
      rcases List.mem_cons.mp member with rfl | later
      · rw [Bucket.get] at read
        split at read
        · rename_i found
          obtain ⟨same, e, there, rfl⟩ := Bucket.mem_of_lookup found
          exact ⟨e, there, same, Except.ok.inj read⟩
        · cases read
      · exact ih rest c later

theorem startNodeLookup : Act.Keeps I (Node.startNodeLookup w t k) := by
  refine .bind (.modify fun s h => rule.look s k h) fun _ => .get_bind fun s h => ?_
  refine Act.Keeps.ofExcept_bind (fun lc done => ?_) s h
  refine rule.replyIterative fun c member => ?_
  obtain ⟨e, there, key, ep⟩ := proximityContacts_subset done c member
  rw [← key, ← ep]
  exact rule.listed s h e there

theorem newSearch {type : SearchType} {fill : Search → Search}
    (bare : ∀ q, (fill q).shortList = q.shortList) : Act.Keeps I (Node.newSearch w k type fill) :=
  .bind rule.randomToken fun _ => .bind .get fun s =>
    .bind (rule.putSearch (by rw [bare]; exact fun c member => by cases member)) fun _ => .pure _

theorem iterativeStore (b : DataItemProto) : Act.Keeps I (Node.iterativeStore w k b) :=
  .bind (rule.newSearch fun _ => rfl) fun _ => rule.startNodeLookup

theorem iterativeFindNodeNolock : Act.Keeps I (Node.iterativeFindNodeNolock w k) :=
  .bind (rule.newSearch fun _ => rfl) fun _ => rule.startNodeLookup

theorem iterativeFindNode : Act.Keeps I (Node.iterativeFindNode w k) :=
  .rethrowAs rule.iterativeFindNodeNolock

theorem iterativeFindValue (c : Nat) (hint : String) :
    Act.Keeps I (Node.iterativeFindValue w k c hint) :=
  .rethrowAs <| .bind (rule.newSearch fun _ => rfl) fun _ => rule.startNodeLookup

/-! ## Cleaning up -/

theorem refreshFrom (fuel pos : Nat) : Act.Keeps I (Node.refreshFrom w fuel pos) := by
  induction fuel generalizing pos with
  | zero => exact .throw _
  | succ fuel ih =>
    refine .bind .get fun s => ?_
    split
    · exact .pure _
    · refine .ite (ih _) (.bind rule.updateTime fun _ => .ite ?_ ?_)
      · refine .bind rule.randomToken fun _ => .bind rule.sendPing fun _ =>
          .bind (rule.onBackup _) fun _ => .bind (.modify fun s h => rule.drop s pos h) fun _ =>
          .bind .get fun _ => ?_
        exact .ite (.bind (.throw _) fun _ => ih _) (ih _)
      · refine .bind (rule.onBackup _) fun _ => .ite ?_ (ih _)
        exact .ite
          (.bind (rule.onBackup _) fun _ => .bind (rule.onBackup _) fun _ => ih _)
          (.bind (rule.onBackup _) fun _ => ih _)

theorem refreshContacts : Act.Keeps I (Node.refreshContacts w) :=
  .rethrowAs <| .bind .get fun _ => rule.refreshFrom _ _

theorem randomKey (i : Nat) : Act.Keeps I (Node.randomKey w i) := fun s =>
  rule.draw s (keySize - i)

theorem diversifyFrom (buckets : List Nat) : Act.Keeps I (Node.diversifyFrom w buckets) := by
  induction buckets with
  | nil => exact .pure _
  | cons i rest ih =>
    refine .bind .get fun s => .ite ?_ ih
    exact .bind (rule.randomKey i) fun _ => .bind rule.iterativeFindNodeNolock fun _ => ih

theorem diversify : Act.Keeps I (Node.diversify w) := .rethrowAs (rule.diversifyFrom _)

/-! ## Receiving -/

theorem handleReplyFindNode (offered : ∀ c ∈ m.contactList, known c.key c.ep) :
    Act.Keeps I (Node.handleReplyFindNode w m) := by
  refine .bind .get fun s => ?_
  split
  · exact .pure _
  · exact .bind (rule.pingContacts _) fun _ => rule.replyIterative offered

theorem handleReplyFindValue : Act.Keeps I (Node.handleReplyFindValue w m) := by
  refine .bind .get fun s => ?_
  split
  · exact .pure _
  · split
    · exact .bind (.ofExcept _) fun _ => rule.eraseSearch
    · exact .bind (.throw _) fun _ => rule.eraseSearch

/-- The endpoint of the last sender may be held fixed besides. -/
theorem sentFrom (ep : Endpoint) : Allows w (fun s => I s ∧ s.senderEndpoint = ep) sent known := by
  have fixed : Notes w (fun s : Node => s.senderEndpoint = ep) fun _ => True :=
    .of_book (fun _ _ _ _ _ h => h) (fun _ _ h _ => h) fun _ _ _ _ _ => trivial
  exact
    { tick := fun s h => ⟨rule.tick s h.1, h.2⟩
      draw := fun s n h => ⟨rule.draw s n h.1, h.2⟩
      log := fun s e h fit => ⟨rule.log s e h.1 fit, h.2⟩
      own := fun s m h => rule.own s m h.1
      sendPing := fun s h => ⟨rule.sendPing s h.1, fixed.sendPing s h.2⟩
      sendPingTo := fun epp _ s h => ⟨rule.sendPingTo epp s h.1, fixed.sendPingTo epp s h.2⟩
      sendStore := fun s h => ⟨rule.sendStore s h.1, fixed.sendStore s h.2⟩
      answered := fun s t h => ⟨rule.answered s t h.1, h.2⟩
      stored := fun s t h => ⟨rule.stored s t h.1, h.2⟩
      backup := fun s c h => ⟨rule.backup s c h.1, h.2⟩
      search := fun s t q h held => ⟨rule.search s t q h.1 held, h.2⟩
      done := fun s t h => ⟨rule.done s t h.1, h.2⟩
      held := fun s t q h => rule.held s t q h.1
      add := fun s order pastEnd now k ep b h offered added =>
        ⟨rule.add s order pastEnd now k ep b h.1 offered added, h.2⟩
      drop := fun s pos h => ⟨rule.drop s pos h.1, h.2⟩
      look := fun s k h => ⟨rule.look s k h.1, h.2⟩
      listed := fun s h => rule.listed s h.1 }

/-- The answer to a ping makes its sender a contact. -/
theorem handleReplyPing {sender : Endpoint} (offered : known m.fromId sender.proto) :
    Act.Keeps (fun s => I s ∧ s.senderEndpoint = sender) (Node.handleReplyPing w m) := by
  have both := rule.sentFrom sender
  refine .bind .get fun s => ?_
  split
  · exact .pure _
  · have forget := Act.Keeps.modify
      (I := fun s => I s ∧ s.senderEndpoint = sender)
      (f := fun s : Node => { s with mapPingTtl := Function.update s.mapPingTtl m.token none })
      fun s => both.answered s m.token
    refine .bind both.updateTime fun _ => .ite ?_ forget
    refine .get_bind fun s h => ?_
    rw [h.2, endpointToProto_eq]
    refine Act.Keeps.ofExcept_bind (I := fun s => I s ∧ s.senderEndpoint = sender)
      (fun epp read => ?_) s h
    obtain rfl := Except.ok.inj read
    exact .bind (both.addContact offered) fun _ => forget

/-- A message keeps the invariant if its sender, and the contacts it lists, are known and
the handlers that use the storage keep it. -/
theorem handleMessageFrom {sender : Endpoint} (offered : known m.fromId sender.proto)
    (listed : ∀ c ∈ m.contactList, known c.key c.ep)
    (stores : m.type = .sendStore →
      Act.Keeps (fun s => I s ∧ s.senderEndpoint = sender) (Node.handleSendStore w m))
    (finds : m.type = .sendFindValue →
      Act.Keeps (fun s => I s ∧ s.senderEndpoint = sender) (Node.handleSendFindValue w m)) :
    Act.Keeps (fun s => I s ∧ s.senderEndpoint = sender)
      (Node.handleMessageFrom w m sender.proto) := by
  have both := rule.sentFrom sender
  unfold Node.handleMessageFrom Node.handleMessage
  cases type : m.type with
  | sendPing => exact .bind (both.addContact offered) fun _ => both.replyPing
  | sendStore => exact .bind (both.addContact offered) fun _ => stores type
  | sendFindNode => exact .bind (both.addContact offered) fun _ => both.replyFindNode
  | sendFindValue => exact .bind (both.addContact offered) fun _ => finds type
  | replyPing => exact rule.handleReplyPing offered
  | replyStore => exact both.handleReplyStore
  | replyFindNode => exact both.handleReplyFindNode listed
  | replyFindValue => exact both.handleReplyFindValue
  | none => exact .throw _

theorem handleReceive {ep : Endpoint} {body : List UInt8}
    (moved : ∀ (s : Node) (ep : Endpoint), I s → I { s with senderEndpoint := ep })
    (offered : known (w.parse body).2.fromId ep.proto)
    (listed : ∀ c ∈ (w.parse body).2.contactList, known c.key c.ep)
    (stores : (w.parse body).2.type = .sendStore →
      Act.Keeps (fun s => I s ∧ s.senderEndpoint = ep) (Node.handleSendStore w (w.parse body).2))
    (finds : (w.parse body).2.type = .sendFindValue →
      Act.Keeps (fun s => I s ∧ s.senderEndpoint = ep)
        (Node.handleSendFindValue w (w.parse body).2)) :
    Act.Keeps I (Node.handleReceive w ep body) := by
  refine .rethrowAs fun s h => ?_
  rw [Act.exec_bind_ok (Act.exec_modify _ _), endpointToProto_eq,
    Act.exec_bind_ok (Act.exec_ofExcept _ _)]
  exact (rule.handleMessageFrom offered listed stores finds { s with senderEndpoint := ep }
    ⟨moved s ep h, rfl⟩).1

/-- What a clean-up does with a header keeps the invariant if the calls on the storage do. -/
theorem cleanHeader {checkTime : Ptime} {h : DataItemHeader}
    (remove : Act.Keeps I (Node.onStorage (DbMultiKeyData.remove w.storage h.key h.title)))
    (find : Act.Keeps I (Node.onStorage (DbMultiKeyData.findTitle w.storage h.key h.title {}))) :
    Act.Keeps I (Node.cleanHeader w checkTime h) :=
  .rethrowAs <| .ite remove <| .bind find fun _ => rule.iterativeStore _

/-- Where single removals are allowed, so is the removal of all contacts at an endpoint. -/
theorem handleDisconnect (ep : Endpoint) : Act.Keeps I (Node.handleDisconnect ep) := by
  refine .bind (.ofExcept _) fun epp => .get_bind fun s h => ?_
  rw [Act.exec_bind, Act.exec_ofExcept]
  cases removed : s.contactList.removeContact epp with
  | error e => exact h
  | ok b =>
    obtain ⟨left, done, after⟩ := bind_ok_iff.mp removed
    obtain rfl := Except.ok.inj after
    exact Bucket.removeFrom_induction
      (J := fun es => I { s with contactList := { s.contactList with entries := es } })
      (fun _ pos kept => rule.drop _ pos kept) h done

end Allows

/-- The contacts a message makes its receiver hear of are `known`. -/
def Tells (known : String → EndpointProto → Prop) (m : MessageProto) (ep : Endpoint) : Prop :=
  known m.fromId ep.proto ∧ ∀ c ∈ m.contactList, known c.key c.ep

/-- What a packet tells, if the input is one, is `known`. -/
def Input.Tells (known : String → EndpointProto → Prop) (w : World) : Input → Prop
  | receive ep body => Node.Tells known (w.parse body).2 ep
  | _ => True

/-- Whatever runs next and however it ends, the invariant holds again. -/
theorem Allows.run {w : World} {input : Input} (rule : Allows w I sent known)
    (stored : ∀ (s : Node) (c : Conn Tables), I s → I { s with dbStorage := c })
    (moved : ∀ (s : Node) (ep : Endpoint), I s → I { s with senderEndpoint := ep })
    (limit : ∀ (s : Node) (n : Nat), I s → I { s with maxRecords := n })
    (tells : input.Tells known w) : Act.Keeps I (input.run w) := by
  cases input with
  | receive ep body =>
    have both := rule.sentFrom ep
    have stored' (s : Node) (c : Conn Tables) (h : I s ∧ s.senderEndpoint = ep) :
        I { s with dbStorage := c } ∧ s.senderEndpoint = ep := ⟨stored s c h.1, h.2⟩
    exact rule.handleReceive moved tells.1 tells.2 (fun _ => both.handleSendStore stored')
      fun _ => both.handleSendFindValue stored'
  | disconnect ep => exact rule.handleDisconnect ep
  | iterativeStore k b => exact rule.iterativeStore b
  | iterativeFindNode k => exact rule.iterativeFindNode
  | iterativeFindValue k c hint => exact rule.iterativeFindValue c hint
  | pingEndpoint epp t => exact rule.sendPingTo epp
  | ping toId t => exact rule.sendPing
  | setMaxRecord n => exact .modify fun s h => limit s n h
  | refreshContacts => exact rule.refreshContacts
  | diversify => exact rule.diversify
  | storedHeaders =>
    exact .bind (.rethrowAs (Carries.onStorage stored _)) fun _ => .pure _
  | cleanHeader checkTime h =>
    exact rule.cleanHeader (Carries.onStorage stored _) (Carries.onStorage stored _)

end Node

end MiniDht
