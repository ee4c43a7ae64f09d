import MiniDht.Node.Inert
import MiniDht.Node.Rounds

/-!
# What holds of every node

`Sane`: every contact has an endpoint, the node is not its own contact, and every search
is between two rounds. Inputs preserve it as long as the process survives them, so it
holds of every reachable node.
-/

namespace MiniDht

open Lib

namespace Node

variable {w : World} {s : Node} {t : Token} {k : String} {lc : List ContactProto}

/-- What holds of every node between two steps. -/
structure Sane (s : Node) : Prop where
  own : s.contactList.localKey = s.id
  keyed : ∃ key : BitVec keySize, s.id = keyToString key
  named : s.contactList.Named
  others : s.contactList.Others
  ready : ∀ t q, s.mapSearch t = some q → q.Ready

theorem Sane.congr {s s' : Node} (sane : s.Sane) (same : s'.core = s.core) : s'.Sane := by
  simp only [core, Prod.mk.injEq] at same
  obtain ⟨id, list, searches⟩ := same
  constructor
  · rw [id, list]; exact sane.own
  · rw [id]; exact sane.keyed
  · rw [list]; exact sane.named
  · rw [list]; exact sane.others
  · rw [searches]; exact sane.ready

theorem Leaves.sane {α : Type} {x : NodeM α} (inert : Leaves core x) : Act.Preserves Sane x :=
  fun s sane _ => sane.congr (inert s.core s rfl)

/-! ## The contact list -/

theorem exec_addContact (sane : s.Sane) {ep : EndpointProto} (offered : ep.Named) :
    ∃ b, s.contactList.addContact w.evalOrder w.pastEnd (w.clock s.ticks) k ep = .ok b ∧
      Act.exec (addContact w k ep) s =
        (.ok (), { s with ticks := s.ticks + 1, contactList := b }) ∧
      { s with ticks := s.ticks + 1, contactList := b }.Sane := by
  obtain ⟨b, added, own, named, others⟩ := @Bucket.addContact_ok s.contactList w.evalOrder
    w.pastEnd (w.clock s.ticks) k ep sane.named sane.others offered
  refine ⟨b, added, ?_, ?_⟩
  · rw [addContact, Act.exec_bind_ok (exec_updateTime w s), Act.exec_bind_ok (Act.exec_get _), added,
      Act.exec_bind_ok (Act.exec_ofExcept _ _)]
    rfl
  · exact ⟨own.trans sane.own, sane.keyed, named, others, sane.ready⟩

theorem proximityContacts_eq {b : Bucket} (named : b.Named) (ks : List String) :
    proximityContacts b ks =
      .ok (ks.filterMap fun key => (b.lookup key).map fun c => { key := key, ep := c.ep }) := by
  induction ks with
  | nil => rfl
  | cons key ks ih =>
    rw [proximityContacts]
    cases there : b.findKey key with
    | none => simp [ih, Bucket.findKey_eq_none.mp there]
    | some pos =>
      cases found : b.lookup key with
      | none =>
        rw [Bucket.findKey_eq_none.mpr found] at there
        cases there
      | some c =>
        simp [Bucket.get, found, assertNamed_named (named.lookup found), ih, bind,
          Except.bind, pure, Except.pure]

/-! ## Searches -/

/-- A round on a sane node leaves it sane. -/
theorem Sane.round {q : Search} (sane : s.Sane) (here : s.mapSearch t = some q)
    (offered : Search.AllNamed lc) (survives : Survives (Act.exec (replyIterative w lc t k) s).1) :
    (Act.exec (replyIterative w lc t k) s).2.Sane := by
  have ready := sane.ready t q here
  by_cases safe : RoundSafe q lc k
  · rw [exec_replyIterative here ready offered sane.named safe]
    constructor
    · simpa using sane.own
    · simpa using sane.keyed
    · simpa using sane.named
    · simpa using sane.others
    · intro t' q' found
      rw [logged_mapSearch, afterRound_mapSearch] at found
      by_cases same : t' = t
      · subst same
        rw [Function.update_self] at found
        by_cases ended : q.ends lc = true
        · simp [ended] at found
        · simp only [ended, if_false, Option.some.injEq, Bool.false_eq_true] at found
          rw [← found]
          exact ready.next offered safe.1
      · rw [Function.update_of_ne same] at found
        exact sane.ready t' q' found
  · rw [exec_replyIterative_abort here ready offered sane.named safe] at survives
    exact survives.elim

/-- The node after `startNodeLookup` has asked for the proximity map. -/
def proximate (s : Node) (k : String) : Node :=
  { s with contactList := s.contactList.buildProximity k }

theorem exec_startNodeLookup (named : s.contactList.Named) :
    Act.exec (startNodeLookup w t k) s =
      Act.exec (replyIterative w (s.contactList.proximity k) t k) (s.proximate k) := by
  have lookup (key : String) : (s.contactList.buildProximity k).lookup key =
      s.contactList.lookup key := Bucket.lookup_congr (by simp) (by simp) key
  have named' : (s.contactList.buildProximity k).Named := by
    intro e member
    exact named e (by simpa using member)
  rw [startNodeLookup, Act.exec_bind_ok (Act.exec_modify _ _), Act.exec_bind_ok (Act.exec_get _)]
  simp only [proximityContacts_eq named', lookup]
  rw [Act.exec_bind_ok (Act.exec_ofExcept _ _)]
  rfl

theorem Sane.proximate (sane : s.Sane) (k : String) : (s.proximate k).Sane where
  own := (Bucket.buildProximity_localKey _ _).trans sane.own
  keyed := sane.keyed
  named := fun e member => sane.named e (by simpa [Node.proximate] using member)
  others := fun e member => by
    simpa [Node.proximate] using sane.others e (by simpa [Node.proximate] using member)
  ready := sane.ready

theorem Sane.withSearch (sane : s.Sane) {q : Search} (ready : q.Ready) :
    (s.withSearch t q).Sane where
  own := sane.own
  keyed := sane.keyed
  named := sane.named
  others := sane.others
  ready := by
    intro t' q' found
    by_cases same : t' = t
    · subst same
      rw [withSearch_at, Option.some_inj] at found
      rwa [← found]
    · rw [withSearch_of_ne same] at found
      exact sane.ready t' q' found

theorem Sane.withoutSearch (sane : s.Sane) : (s.withoutSearch t).Sane where
  own := sane.own
  keyed := sane.keyed
  named := sane.named
  others := sane.others
  ready := by
    intro t' q' found
    by_cases same : t' = t
    · subst same
      rw [withoutSearch_at] at found
      cases found
    · rw [withoutSearch_of_ne same] at found
      exact sane.ready t' q' found

/-- The node after `newSearch`: the search is in the map under its token. -/
def searching (w : World) (s : Node) (q : Search) : Node :=
  { s with draws := s.draws + tokenSize }.withSearch (tokenAt w s.draws) q

theorem exec_newSearch (type : SearchType) (fill : Search → Search) :
    Act.exec (newSearch w k type fill) s =
      (.ok (tokenAt w s.draws), s.searching w (fill (Search.new s.id k type))) := rfl

theorem Sane.searching (sane : s.Sane) {q : Search} (ready : q.Ready) :
    (s.searching w q).Sane := by
  have moved : ({ s with draws := s.draws + tokenSize } : Node).Sane := sane.congr rfl
  exact moved.withSearch ready

/-- The first round of a search, as `startNodeLookup` runs it under a new token. -/
theorem exec_newSearch_start (sane : s.Sane) (type : SearchType) (fill : Search → Search)
    (ready : (fill (Search.new s.id k type)).Ready) :
    Act.exec (do
        let t ← newSearch w k type fill
        startNodeLookup w t k) s =
      Act.exec (replyIterative w (s.contactList.proximity k) (tokenAt w s.draws) k)
        ((s.searching w (fill (Search.new s.id k type))).proximate k) := by
  rw [Act.exec_bind_ok (exec_newSearch type fill),
    exec_startNodeLookup (sane.searching ready).named]
  rfl

theorem preserves_newSearch_start (type : SearchType) (fill : Search → Search)
    (ready : ∀ id, (fill (Search.new id k type)).Ready) :
    Act.Preserves Sane (do
      let t ← newSearch w k type fill
      startNodeLookup w t k) := by
  intro s sane survives
  rw [exec_newSearch_start sane type fill (ready s.id)] at survives ⊢
  exact Sane.round ((sane.searching (ready s.id)).proximate k) withSearch_at
    (Bucket.proximity_named sane.named k) survives

theorem store_ready (src k : String) (b : DataItemProto) :
    ({ Search.new src k .store with buffer := b } : Search).Ready :=
  Search.new_ready src k .store b none "" fun _ => rfl

theorem node_ready (src k : String) :
    ({ Search.new src k .node with nodeCallbackValid := false } : Search).Ready :=
  Search.new_ready src k .node {} none "" fun _ => rfl

theorem value_ready (src k hint : String) (c : Nat) :
    ({ Search.new src k .value with valueCallback := some c, hint := hint } : Search).Ready :=
  Search.new_ready src k .value {} (some c) hint fun other => absurd rfl other

theorem preserves_iterativeStore (k : String) (b : DataItemProto) :
    Act.Preserves Sane (iterativeStore w k b) :=
  preserves_newSearch_start _ _ fun id => store_ready id k b

theorem preserves_iterativeFindNodeNolock (k : String) :
    Act.Preserves Sane (iterativeFindNodeNolock w k) :=
  preserves_newSearch_start _ _ fun id => node_ready id k

/-! ## Handlers -/

/-- What pings leave of a node: the clock, the random numbers, the pings and the log have
moved on, and only pings were sent. -/
def Pinged (s s' : Node) : Prop :=
  ∃ ticks draws pings es,
    s' = { s with ticks := ticks, draws := draws, mapPingTtl := pings, log := s.log ++ es } ∧
      ∀ e ∈ es, e.message.type = .sendPing

theorem Pinged.refl (s : Node) : Pinged s s :=
  ⟨s.ticks, s.draws, s.mapPingTtl, [], by simp, by simp⟩

theorem Pinged.trans {s₁ s₂ s₃ : Node} (first : Pinged s₁ s₂) (second : Pinged s₂ s₃) :
    Pinged s₁ s₃ := by
  obtain ⟨ticks, draws, pings, es, rfl, only⟩ := first
  obtain ⟨ticks', draws', pings', es', rfl, only'⟩ := second
  refine ⟨ticks', draws', pings', es ++ es', by simp, ?_⟩
  intro e seen
  rcases List.mem_append.mp seen with early | late
  · exact only e early
  · exact only' e late

theorem Pinged.core {s s' : Node} (after : Pinged s s') : s'.core = s.core := by
  obtain ⟨ticks, draws, pings, es, rfl, -⟩ := after
  rfl

/-- Pings leave the searches alone. -/
theorem Pinged.mapSearch {s s' : Node} (after : Pinged s s') : s'.mapSearch = s.mapSearch := by
  obtain ⟨ticks, draws, pings, es, rfl, -⟩ := after
  rfl

/-- The contacts of a reply are pinged, and the loop goes through. -/
theorem exec_pingContacts (named : s.contactList.Named) (offered : Search.AllNamed lc)
    (nonzero : zeroId ∉ Search.keys lc) :
    ∃ s', Act.exec (pingContacts w lc) s = (.ok (), s') ∧ Pinged s s' := by
  induction lc generalizing s with
  | nil => exact ⟨s, rfl, .refl s⟩
  | cons c rest ih =>
    rw [Search.keys, List.map_cons, List.mem_cons, not_or] at nonzero
    have ping := exec_sendPing (w := w) (t := tokenAt w s.draws)
      (s := { s with draws := s.draws + tokenSize }) (Ne.symm nonzero.1) named
    obtain ⟨s', run, after⟩ := ih (s := (pinged w { s with draws := s.draws + tokenSize }
      (tokenAt w s.draws)).logged (sendEvents w s.id s.contactList
        (pingMessage s.id c.key (tokenAt w s.draws)))) named
      (fun d hd => offered d (List.mem_cons_of_mem _ hd)) nonzero.2
    refine ⟨s', ?_, .trans ⟨_, _, _, _, rfl, ?_⟩ after⟩
    · rw [pingContacts, assertNamed_named (offered c List.mem_cons_self),
        Act.exec_bind_ok (Act.exec_ofExcept _ _), Act.exec_bind_ok (exec_randomToken w s), Act.exec_bind_ok ping]
      exact run
    · intro e seen
      rw [message_of_mem_sendEvents seen]
      rfl

/-- A contact without endpoint or under the zero id fails an assert. -/
theorem exec_pingContacts_abort (named : s.contactList.Named)
    (bad : ¬ (Search.AllNamed lc ∧ zeroId ∉ Search.keys lc)) :
    (Act.exec (pingContacts w lc) s).1 = .error .assertion := by
  induction lc generalizing s with
  | nil => exact absurd ⟨by simp [Search.AllNamed], by simp [Search.keys]⟩ bad
  | cons c rest ih =>
    rw [pingContacts]
    by_cases offered : c.ep.Named
    · rw [assertNamed_named offered, Act.exec_bind_ok (Act.exec_ofExcept _ _),
        Act.exec_bind_ok (exec_randomToken w s)]
      by_cases zero : c.key = zeroId
      · rw [sendPing, Act.exec_bind_error (exec_checked_zero zero)]
      · have ping := exec_sendPing (w := w) (t := tokenAt w s.draws)
          (s := { s with draws := s.draws + tokenSize }) zero named
        rw [Act.exec_bind_ok ping]
        apply ih
        · exact named
        · rintro ⟨others, nonzero⟩
          refine bad ⟨?_, ?_⟩
          · intro d member
            rcases List.mem_cons.mp member with rfl | later
            · exact offered
            · exact others d later
          · rw [Search.keys, List.map_cons, List.mem_cons, not_or]
            exact ⟨Ne.symm zero, nonzero⟩
    · rw [Search.assertNamed_error offered, Act.exec_bind_error (Act.exec_ofExcept _ _)]

/-- A reply with contacts pings them and then runs a round. -/
theorem exec_handleReplyFindNode {m : MessageProto} {q : Search} (sane : s.Sane)
    (here : s.mapSearch m.token = some q) (offered : Search.AllNamed m.contactList)
    (nonzero : zeroId ∉ Search.keys m.contactList) :
    ∃ s', Pinged s s' ∧ Act.exec (handleReplyFindNode w m) s =
      Act.exec (replyIterative w m.contactList m.token m.toId) s' := by
  obtain ⟨s', run, after⟩ := exec_pingContacts (w := w) sane.named offered nonzero
  refine ⟨s', after, ?_⟩
  rw [handleReplyFindNode, Act.exec_bind_ok (Act.exec_get s), here, Act.exec_bind_ok run]

theorem exec_handleReplyFindNode_unknown {m : MessageProto} (unknown : s.mapSearch m.token = none) :
    Act.exec (handleReplyFindNode w m) s = (.ok (), s) := by
  rw [handleReplyFindNode, Act.exec_bind_ok (Act.exec_get s), unknown]
  rfl

/-- A reply to a search that is not there changes nothing. -/
theorem reply_unknown {m : MessageProto} {s' : Node} (unknown : s.mapSearch m.token = none)
    (run : Act.exec (handleReplyFindNode w m) s = (.ok (), s')) : s' = s := by
  rw [exec_handleReplyFindNode_unknown unknown] at run
  exact (congrArg Prod.snd run).symm

theorem exec_handleReplyFindNode_abort {m : MessageProto} {q : Search} (sane : s.Sane)
    (here : s.mapSearch m.token = some q)
    (bad : ¬ (Search.AllNamed m.contactList ∧ zeroId ∉ Search.keys m.contactList)) :
    (Act.exec (handleReplyFindNode w m) s).1 = .error .assertion := by
  have aborted := exec_pingContacts_abort (w := w) sane.named bad
  rw [handleReplyFindNode, Act.exec_bind_ok (Act.exec_get s), here, Act.exec_bind]
  generalize Act.exec (pingContacts w m.contactList) s = r at aborted
  obtain ⟨o, s'⟩ := r
  simp only at aborted
  rw [aborted]

theorem preserves_handleReplyFindNode (m : MessageProto) :
    Act.Preserves Sane (handleReplyFindNode w m) := by
  intro s sane survives
  cases here : s.mapSearch m.token with
  | none =>
    rw [exec_handleReplyFindNode_unknown here]
    exact sane
  | some q =>
    by_cases good : Search.AllNamed m.contactList ∧ zeroId ∉ Search.keys m.contactList
    · obtain ⟨s', after, run⟩ := exec_handleReplyFindNode (w := w) sane here good.1 good.2
      rw [run] at survives ⊢
      have here' : s'.mapSearch m.token = some q := by rw [after.mapSearch, here]
      exact (sane.congr after.core).round here' good.1 survives
    · rw [exec_handleReplyFindNode_abort sane here good] at survives
      exact survives.elim

theorem preserves_addContact {ep : EndpointProto} (offered : ep.Named) :
    Act.Preserves Sane (addContact w k ep) := by
  intro s sane _
  obtain ⟨b, -, run, kept⟩ := exec_addContact (w := w) (k := k) sane offered
  rw [run]
  exact kept

theorem preserves_handleReplyPing (m : MessageProto) : Act.Preserves Sane (handleReplyPing w m) := by
  have forget : Act.Preserves Sane (modify fun s : Node =>
      { s with mapPingTtl := Function.update s.mapPingTtl m.token none }) :=
    .modify fun _ sane => sane.congr rfl
  refine .get_bind fun s sane survives => ?_
  cases known : s.mapPingTtl m.token with
  | none => simpa [known] using sane
  | some sent =>
    simp only [known] at survives ⊢
    refine Act.Preserves.bind (Leaves.updateTime blind_core).sane (fun now => ?_) s sane survives
    refine .ite (.get_bind fun s sane survives => ?_) forget
    simp only [endpointToProto_eq] at survives ⊢
    rw [Act.exec_bind_ok (Act.exec_ofExcept _ _)] at survives ⊢
    exact Act.Preserves.bind (preserves_addContact s.senderEndpoint.proto_named)
      (fun _ => forget) s sane survives

theorem preserves_handleReplyFindValue (m : MessageProto) :
    Act.Preserves Sane (handleReplyFindValue w m) := by
  have erase : Act.Preserves Sane (eraseSearch m.token) :=
    .modify fun _ sane => sane.withoutSearch
  refine .get_bind fun s sane survives => ?_
  cases known : s.mapSearch m.token with
  | none => simpa [known] using sane
  | some search =>
    simp only [known] at survives ⊢
    cases callback : search.valueCallback with
    | none =>
      simp only [callback] at survives ⊢
      exact Act.Preserves.bind (.throw _) (fun _ => erase) s sane survives
    | some c =>
      simp only [callback] at survives ⊢
      exact Act.Preserves.bind (.ofExcept _) (fun _ => erase) s sane survives

theorem preserves_handleMessage (m : MessageProto) : Act.Preserves Sane (handleMessage w m) := by
  unfold handleMessage
  cases m.type with
  | sendPing => exact (Leaves.replyPing blind_core _ _).sane
  | replyPing => exact preserves_handleReplyPing m
  | sendStore => exact (Inert.handleSendStore m).sane
  | replyStore => exact (Leaves.handleReplyStore blind_core w m).sane
  | sendFindNode => exact (Leaves.replyFindNode blind_core _ _).sane
  | replyFindNode => exact preserves_handleReplyFindNode m
  | sendFindValue => exact (Inert.handleSendFindValue m).sane
  | replyFindValue => exact preserves_handleReplyFindValue m
  | none => exact .throw _

theorem preserves_handleMessageFrom (m : MessageProto) {epp : EndpointProto}
    (offered : epp.Named) : Act.Preserves Sane (handleMessageFrom w m epp) := by
  unfold handleMessageFrom
  split
  all_goals first
    | exact .bind (preserves_addContact offered) fun _ => preserves_handleMessage m
    | exact preserves_handleMessage m
    | exact .throw _

/-- The body of `handle_receive` once the sender is known. -/
theorem exec_handleReceive (w : World) (ep : Endpoint) (body : List UInt8) (s : Node) :
    Act.exec (handleReceive w ep body) s =
      Act.exec (Act.rethrowAs localEndpointError
        (handleMessageFrom w (w.parse body).2 ep.proto)) { s with senderEndpoint := ep } := by
  rw [handleReceive, Act.exec_rethrowAs, Act.exec_rethrowAs,
    Act.exec_bind_ok (Act.exec_modify _ _), endpointToProto_eq,
    Act.exec_bind_ok (Act.exec_ofExcept _ _)]

theorem preserves_handleReceive (ep : Endpoint) (body : List UInt8) :
    Act.Preserves Sane (handleReceive w ep body) := by
  intro s sane survives
  rw [exec_handleReceive] at survives ⊢
  exact Act.Preserves.rethrowAs (preserves_handleMessageFrom _ ep.proto_named) _ (sane.congr rfl)
    survives

/-! ## The other inputs -/

theorem Sane.fewer {entries : List (Nat × ContactProto)} (sane : s.Sane)
    (fewer : entries ⊆ s.contactList.entries) :
    { s with contactList := { s.contactList with entries := entries } }.Sane where
  own := sane.own
  keyed := sane.keyed
  named := fun e member => sane.named e (fewer member)
  others := fun e member => sane.others e (fewer member)
  ready := sane.ready

theorem preserves_handleDisconnect (ep : Endpoint) : Act.Preserves Sane (handleDisconnect ep) := by
  unfold handleDisconnect
  refine .bind (.ofExcept _) fun epp => .get_bind fun s sane survives => ?_
  cases done : Bucket.removeFrom epp
      ((s.contactList.entries.length + 1) * (s.contactList.entries.length + 1)) 0
      s.contactList.entries with
  | error e =>
    have removed : s.contactList.removeContact epp = .error e := by
      simp [Bucket.removeContact, done, bind, Except.bind]
    rw [removed, Act.exec_bind_error (Act.exec_ofExcept _ _)]
    exact sane
  | ok entries =>
    have removed : s.contactList.removeContact epp =
        .ok { s.contactList with entries := entries } := by
      simp [Bucket.removeContact, done, bind, Except.bind, pure, Except.pure]
    rw [removed, Act.exec_bind_ok (Act.exec_ofExcept _ _)]
    exact sane.fewer (Bucket.removeFrom_subset done)

theorem preserves_refreshFrom (fuel pos : Nat) : Act.Preserves Sane (refreshFrom w fuel pos) := by
  induction fuel generalizing pos with
  | zero => exact .throw _
  | succ fuel ih =>
    refine .bind Leaves.get.sane fun s => ?_
    split
    · exact .pure _
    refine .ite (ih _) (.bind (Leaves.updateTime blind_core).sane fun _ => .ite ?_ ?_)
    · refine .bind (Leaves.randomToken blind_core).sane fun _ => .bind (Leaves.sendPing blind_core _ _).sane fun _ =>
        .bind (Leaves.onBackup (fun _ _ => rfl) _).sane fun _ => .bind (.modify fun s sane => ?_) fun _ =>
        .bind Leaves.get.sane fun _ => .ite (.bind (.throw _) fun _ => ih _) (ih _)
      exact sane.fewer (List.eraseIdx_subset ..)
    · refine .bind (Leaves.onBackup (fun _ _ => rfl) _).sane fun _ => .ite ?_ (ih _)
      exact .ite (.bind (Leaves.onBackup (fun _ _ => rfl) _).sane fun _ => .bind (Leaves.onBackup (fun _ _ => rfl) _).sane fun _ => ih _)
        (.bind (Leaves.onBackup (fun _ _ => rfl) _).sane fun _ => ih _)

theorem preserves_diversifyFrom (buckets : List Nat) :
    Act.Preserves Sane (diversifyFrom w buckets) := by
  have key (i : Nat) : Inert (randomKey w i) := fun _ _ h => h
  induction buckets with
  | nil => exact .pure _
  | cons i rest ih =>
    refine .bind Leaves.get.sane fun s => .ite ?_ ih
    exact .bind (key i).sane fun k => .bind (preserves_iterativeFindNodeNolock k) fun _ => ih

theorem preserves_input (input : Input) : Act.Preserves Sane (input.run w) := by
  cases input with
  | receive ep body => exact preserves_handleReceive ep body
  | disconnect ep => exact preserves_handleDisconnect ep
  | iterativeStore k b => exact preserves_iterativeStore k b
  | iterativeFindNode k => exact .rethrowAs (preserves_iterativeFindNodeNolock k)
  | iterativeFindValue k c hint =>
    exact .rethrowAs (preserves_newSearch_start _ _ fun id => value_ready id k hint c)
  | pingEndpoint epp t => exact (Leaves.sendPingTo blind_core epp t).sane
  | ping toId t => exact (Leaves.sendPing blind_core toId t).sane
  | setMaxRecord val => exact .modify fun _ sane => sane.congr rfl
  | refreshContacts => exact .rethrowAs (.bind Leaves.get.sane fun _ => preserves_refreshFrom _ _)
  | diversify => exact .rethrowAs (preserves_diversifyFrom _)
  | storedHeaders => exact .bind Inert.storedHeaders.sane fun _ => .pure _
  | cleanHeader checkTime h =>
    refine .rethrowAs (.ite (Inert.onStorage _).sane ?_)
    exact .bind (Inert.onStorage _).sane fun _ => preserves_iterativeStore _ _

/-- What an input makes of a sane node is sane. -/
theorem Sane.input {s' : Node} {out : Except Fault Unit} (sane : s.Sane) (input : Input)
    (run : Act.exec (input.run w) s = (out, s')) (survives : Survives out) : s'.Sane := by
  have kept := preserves_input (w := w) input s sane (by rw [run]; exact survives)
  rwa [run] at kept

theorem initial_sane (key : BitVec keySize) (maxRecords : Nat) (storage : Tables)
    (contacts : Contacts) : (initial key maxRecords storage contacts).Sane where
  own := rfl
  keyed := ⟨key, rfl⟩
  named := by simp [initial, Bucket.new, Bucket.Named]
  others := by simp [initial, Bucket.new, Bucket.Others]
  ready := by simp [initial]

/-- **Every reachable node is sane.** -/
theorem Reachable.sane (reach : Reachable w s) : s.Sane := by
  induction reach with
  | start run =>
    have kept := (Leaves.restoreFromBackup blind_core fun _ _ => rfl).sane _ (initial_sane ..) (by rw [run]; trivial)
    rwa [run] at kept
  | step _ run survives ih => exact ih.input _ run survives

end Node

end MiniDht
