import MiniDht.Node.Sane

/-!
# Replies

A `REPLY_FIND_NODE` that is handled to its end has pinged its contacts and run one round
for the search under its token (`reply_cases`). What is seen of it, pings aside, is what is
seen of the round. The other replies send nothing, and leave node and store searches alone.
-/

namespace MiniDht

open Lib

namespace Node

variable {w : World} {s s' : Node} {t : Token} {q : Search} {m : MessageProto}

/-- Pings are requests of no other type. -/
theorem recipients_pings {es : List Event} (only : ∀ e ∈ es, e.message.type = .sendPing)
    {type : MessageType} (other : type ≠ .sendPing) : recipients type t es = [] := by
  have none : ∀ m ∈ requests es, ¬ (m.type = type ∧ m.token = t) := by
    rintro m member ⟨same, -⟩
    obtain ⟨e, seen, about⟩ := List.mem_filterMap.mp member
    have ping := only e seen
    cases e <;> cases about
    exact other (same.symm.trans ping)
  rw [recipients, List.map_eq_nil_iff, List.filter_eq_nil_iff]
  simpa using none

/-- The contacts of a reply that was handled to its end have endpoints, and none is under
the zero id. -/
theorem reply_offered (sane : s.Sane) (here : s.mapSearch m.token = some q)
    (run : Act.exec (handleReplyFindNode w m) s = (.ok (), s')) :
    Search.AllNamed m.contactList ∧ zeroId ∉ Search.keys m.contactList := by
  by_contra bad
  have aborted := exec_handleReplyFindNode_abort (w := w) sane here bad
  rw [run] at aborted
  cases aborted

/-- What a reply did that was handled to its end: everything a round can depend on was in
order, and the round was run after some pings. -/
theorem reply_cases (sane : s.Sane) (here : s.mapSearch m.token = some q)
    (run : Act.exec (handleReplyFindNode w m) s = (.ok (), s')) :
    Search.AllNamed m.contactList ∧ RoundSafe q m.contactList m.toId ∧
      ∃ s₁, Pinged s s₁ ∧ s₁.mapSearch m.token = some q ∧
        s' = (s₁.afterRound q m.contactList m.token).logged
          (roundEvents w s₁ q m.contactList m.token m.toId) := by
  have good := reply_offered sane here run
  obtain ⟨s₁, after, round⟩ := exec_handleReplyFindNode (w := w) sane here good.1 good.2
  have kept := sane.congr after.core
  have here₁ : s₁.mapSearch m.token = some q := by rw [after.mapSearch, here]
  have ready := sane.ready _ _ here
  have safe : RoundSafe q m.contactList m.toId := by
    by_contra risky
    have aborted := exec_replyIterative_abort (w := w) here₁ ready good.1 kept.named risky
    rw [← round, run] at aborted
    cases aborted
  rw [run, exec_replyIterative here₁ ready good.1 kept.named safe] at round
  exact ⟨good.1, safe, s₁, after, here₁, congrArg Prod.snd round⟩

/-- A reply on which everything is in order is handled to its end. -/
theorem reply_returns (sane : s.Sane) (here : s.mapSearch m.token = some q)
    (offered : Search.AllNamed m.contactList) (nonzero : zeroId ∉ Search.keys m.contactList)
    (safe : RoundSafe q m.contactList m.toId) :
    ∃ s', Act.exec (handleReplyFindNode w m) s = (.ok (), s') ∧ s'.Sane := by
  obtain ⟨s₁, after, round⟩ := exec_handleReplyFindNode (w := w) sane here offered nonzero
  have kept := sane.congr after.core
  have here₁ : s₁.mapSearch m.token = some q := by rw [after.mapSearch, here]
  have run := exec_replyIterative (w := w) here₁ (sane.ready _ _ here) offered kept.named safe
  refine ⟨_, round.trans run, ?_⟩
  have kept := kept.round (w := w) (k := m.toId) here₁ offered (by rw [run]; trivial)
  rwa [run] at kept

/-- What a reply leaves of the search under its token. -/
theorem reply_search (sane : s.Sane) (here : s.mapSearch m.token = some q)
    (run : Act.exec (handleReplyFindNode w m) s = (.ok (), s')) :
    s'.mapSearch m.token =
      if q.ends m.contactList then none else some (q.next m.contactList) := by
  obtain ⟨-, -, s₁, -, -, rfl⟩ := reply_cases sane here run
  rw [logged_mapSearch, afterRound_at]

/-- What is seen of a reply: pings, and then its round. -/
theorem reply_log (sane : s.Sane) (here : s.mapSearch m.token = some q)
    (run : Act.exec (handleReplyFindNode w m) s = (.ok (), s')) :
    ∃ es, (∀ e ∈ es, e.message.type = .sendPing) ∧
      s'.log = s.log ++ (es ++ roundEvents w s q m.contactList m.token m.toId) := by
  obtain ⟨-, -, s₁, ⟨ticks, draws, pings, es, rfl, only⟩, -, rfl⟩ := reply_cases sane here run
  refine ⟨es, only, ?_⟩
  rw [logged_log, afterRound_log, List.append_assoc]
  rfl

/-- What a reply leaves alone. -/
theorem reply_frame (sane : s.Sane) (run : Act.exec (handleReplyFindNode w m) s = (.ok (), s')) :
    s'.id = s.id ∧ s'.dbStorage = s.dbStorage ∧ ∀ t, t ≠ m.token → s'.mapSearch t = s.mapSearch t := by
  cases here : s.mapSearch m.token with
  | none =>
    rw [reply_unknown here run]
    exact ⟨rfl, rfl, fun _ _ => rfl⟩
  | some q =>
    obtain ⟨-, -, s₁, ⟨ticks, draws, pings, es, rfl, -⟩, -, rfl⟩ := reply_cases sane here run
    refine ⟨afterRound_id .., afterRound_dbStorage .., fun t other => ?_⟩
    rw [logged_mapSearch, afterRound_mapSearch, Function.update_of_ne other]

/-- A reply keeps a node as it should be. -/
theorem reply_sane (sane : s.Sane) (run : Act.exec (handleReplyFindNode w m) s = (.ok (), s')) :
    s'.Sane := by
  have kept := preserves_handleReplyFindNode (w := w) m s sane (by rw [run]; trivial)
  rwa [run] at kept

/-- Pings aside, a reply makes the requests of its round. -/
theorem reply_recipients (sane : s.Sane) (here : s.mapSearch m.token = some q)
    (run : Act.exec (handleReplyFindNode w m) s = (.ok (), s')) {type : MessageType}
    (other : type ≠ .sendPing) :
    recipients type m.token (s.since s') =
      if roundType q m.contactList = type then Search.keys (q.picks m.contactList) else [] := by
  obtain ⟨-, safe, -⟩ := reply_cases sane here run
  obtain ⟨es, only, log⟩ := reply_log sane here run
  rw [since_of_log log, recipients_append, recipients_pings only other, List.nil_append,
    recipients_roundEvents, taken_safe safe]

/-! ## The first round -/

/-- The node when the first round of a search for `k` is run. -/
def begun (w : World) (s : Node) (q : Search) (k : String) : Node :=
  (s.searching w q).proximate k

theorem begun_lookup (w : World) (s : Node) (q : Search) (k key : String) :
    (s.begun w q k).contactList.lookup key = s.contactList.lookup key :=
  Bucket.lookup_congr (by simp [begun, searching, proximate, withSearch])
    (by simp [begun, searching, proximate, withSearch]) key

/-- What beginning a search did to a node that survived it. -/
theorem begin_cases {k : String} {type : SearchType} {fill : Search → Search}
    {out : Except Fault Unit} (sane : s.Sane) (filled : fill (Search.new s.id k type) = q)
    (ready : q.Ready)
    (run : Act.exec (do
        let t ← newSearch w k type fill
        startNodeLookup w t k) s = (out, s')) (survives : Survives out) :
    out = .ok () ∧ RoundSafe q (s.contactList.proximity k) k ∧
      s' = ((s.begun w q k).afterRound q (s.contactList.proximity k) (tokenAt w s.draws)).logged
        (roundEvents w (s.begun w q k) q (s.contactList.proximity k) (tokenAt w s.draws) k) := by
  subst filled
  have offered := Bucket.proximity_named sane.named k
  have named := ((sane.searching (w := w) ready).proximate k).named
  obtain ⟨s₁, round, -, after⟩ := exec_round (w := w) (k := k)
    (s := s.begun w (fill (Search.new s.id k type)) k) withSearch_at ready offered named
  rw [exec_newSearch_start sane type fill ready] at run
  rw [begun] at round
  rw [round] at run
  by_cases safe : RoundSafe (fill (Search.new s.id k type)) (s.contactList.proximity k) k
  · rw [if_pos safe, after safe] at run
    cases run
    exact ⟨rfl, safe, rfl⟩
  · rw [if_neg safe] at run
    cases run
    exact survives.elim

/-- A search whose first round is safe begins. -/
theorem begin_returns {k : String} {type : SearchType} {fill : Search → Search} (sane : s.Sane)
    (filled : fill (Search.new s.id k type) = q) (ready : q.Ready)
    (safe : RoundSafe q (s.contactList.proximity k) k) :
    Act.exec (do
        let t ← newSearch w k type fill
        startNodeLookup w t k) s =
      (.ok (), ((s.begun w q k).afterRound q (s.contactList.proximity k) (tokenAt w s.draws)).logged
        (roundEvents w (s.begun w q k) q (s.contactList.proximity k) (tokenAt w s.draws) k)) := by
  subst filled
  rw [exec_newSearch_start sane type fill ready]
  exact exec_replyIterative withSearch_at ready (Bucket.proximity_named sane.named k)
    ((sane.searching ready).proximate k).named safe

/-! ## The other replies -/

/-- `handle_REPLY_PING` on a ping that is waited for: its sender is a contact afterwards if
the ping was noted less than a minute after now. -/
theorem exec_handleReplyPing_noted (sane : s.Sane) {sent : Ptime}
    (noted : s.mapPingTtl m.token = some sent) :
    ∃ b, s.contactList.addContact w.evalOrder w.pastEnd (w.clock (s.ticks + 1)) m.fromId
        s.senderEndpoint.proto = .ok b ∧
      Act.exec (handleReplyPing w m) s =
        (.ok (), { s with
          ticks := if sent - w.clock s.ticks < minutes 1 then s.ticks + 2 else s.ticks + 1
          contactList := if sent - w.clock s.ticks < minutes 1 then b else s.contactList
          mapPingTtl := Function.update s.mapPingTtl m.token none }) := by
  have forget (s : Node) : Act.exec (modify fun s : Node =>
      { s with mapPingTtl := Function.update s.mapPingTtl m.token none } : NodeM PUnit) s =
        (.ok (), { s with mapPingTtl := Function.update s.mapPingTtl m.token none }) := rfl
  have moved : ({ s with ticks := s.ticks + 1 } : Node).Sane := sane.congr rfl
  obtain ⟨b, filed, added, -⟩ := exec_addContact (w := w) (k := m.fromId) moved
    s.senderEndpoint.proto_named
  refine ⟨b, filed, ?_⟩
  rw [handleReplyPing, Act.exec_bind_ok (Act.exec_get s), noted]
  simp only []
  rw [Act.exec_bind_ok (exec_updateTime w s)]
  by_cases recent : sent - w.clock s.ticks < minutes 1
  · simp only [if_pos recent]
    rw [Act.exec_bind_ok (Act.exec_get _), endpointToProto_eq,
      Act.exec_bind_ok (Act.exec_ofExcept _ _), Act.exec_bind_ok added, forget]
  · simp only [if_neg recent]
    rw [forget]

theorem exec_handleReplyPing_unknown (unknown : s.mapPingTtl m.token = none) :
    Act.exec (handleReplyPing w m) s = (.ok (), s) := by
  rw [handleReplyPing, Act.exec_bind_ok (Act.exec_get s), unknown]
  rfl

/-- `handle_REPLY_PING` returns, whatever the ping was. -/
theorem exec_handleReplyPing (sane : s.Sane) (m : MessageProto) :
    ∃ ticks list pings, Act.exec (handleReplyPing w m) s =
      (.ok (), { s with ticks := ticks, contactList := list, mapPingTtl := pings }) := by
  cases known : s.mapPingTtl m.token with
  | none => exact ⟨s.ticks, s.contactList, s.mapPingTtl, exec_handleReplyPing_unknown known⟩
  | some sent =>
    obtain ⟨b, -, run⟩ := exec_handleReplyPing_noted (w := w) sane known
    exact ⟨_, _, _, run⟩

/-- `handle_REPLY_STORE` throws when the size it is told is not the one it noted. -/
theorem exec_handleReplyStore (m : MessageProto) :
    Act.exec (handleReplyStore m) s =
      match s.mapStoreCheckVal m.token with
      | none => (.ok (), s)
      | some size =>
        if m.checkVal = size then
          (.ok (), { s with mapStoreCheckVal := Function.update s.mapStoreCheckVal m.token none })
        else (.error (.exception localEndpointError), s) := by
  rw [handleReplyStore, Act.exec_bind_ok (Act.exec_get s)]
  cases s.mapStoreCheckVal m.token with
  | none => rfl
  | some size =>
    by_cases same : m.checkVal = size
    · simp [same]
    · simp [same]

/-- `handle_REPLY_FIND_VALUE` throws when the search it is for has no callback, and lets
out what the callback throws. -/
theorem exec_handleReplyFindValue (m : MessageProto) :
    Act.exec (handleReplyFindValue w m) s =
      match s.mapSearch m.token with
      | none => (.ok (), s)
      | some q =>
        match q.valueCallback with
        | none => (.error (.exception "call to empty boost::function"), s)
        | some c =>
          match w.valueCallback c m.dataItemList with
          | .ok () => (.ok (), s.withoutSearch m.token)
          | .error e => (.error e, s) := by
  rw [handleReplyFindValue, Act.exec_bind_ok (Act.exec_get s)]
  cases s.mapSearch m.token with
  | none => rfl
  | some q =>
    cases callback : q.valueCallback with
    | none => simp [callback]
    | some c =>
      simp only [callback]
      cases called : w.valueCallback c m.dataItemList with
      | error e => rw [Act.exec_bind_error (Act.exec_ofExcept _ _)]
      | ok u =>
        rw [Act.exec_bind_ok (Act.exec_ofExcept _ _)]
        exact exec_eraseSearch s

/-- An answer with values ends a search that has a callback, or changes nothing. -/
theorem handleReplyFindValue_cases (m : MessageProto) :
    (Act.exec (handleReplyFindValue w m) s).2 = s ∨
      ∃ q c, s.mapSearch m.token = some q ∧ q.valueCallback = some c ∧
        (Act.exec (handleReplyFindValue w m) s).2 = s.withoutSearch m.token := by
  rw [exec_handleReplyFindValue]
  cases here : s.mapSearch m.token with
  | none => exact .inl rfl
  | some q =>
    cases callback : q.valueCallback with
    | none => exact .inl (by simp only [callback])
    | some c =>
      cases called : w.valueCallback c m.dataItemList with
      | error e => exact .inl (by simp only [callback, called])
      | ok u => exact .inr ⟨q, c, rfl, callback, by simp only [callback, called]⟩

/-! ## A reply arrives -/

/-- A message of one of the reply types. -/
def IsReply (m : MessageProto) : Prop :=
  m.type = .replyPing ∨ m.type = .replyStore ∨ m.type = .replyFindNode ∨ m.type = .replyFindValue

theorem handleMessageFrom_reply (reply : IsReply m) (epp : EndpointProto) :
    handleMessageFrom w m epp = handleMessage w m := by
  rcases reply with type | type | type | type <;> simp [handleMessageFrom, type]

/-- What a packet with a reply does to a node that survives it: it delivers contacts to a
search, or it sends nothing and leaves the node and store searches as they are. -/
inductive ReplyStep (w : World) (m : MessageProto) (s s' : Node) : Prop where
  | contacts (type : m.type = .replyFindNode)
      (run : Act.exec (handleReplyFindNode w m) s = (.ok (), s'))
  | other (log : s'.log = s.log) (id : s'.id = s.id) (stored : s'.dbStorage = s.dbStorage)
      (kept : ∀ t q, s.mapSearch t = some q → q.searchType ≠ .value → s'.mapSearch t = some q)
      (none : ∀ t, s.mapSearch t = none → s'.mapSearch t = none)

/-- A reply with contacts returns, or fails an assert. -/
theorem reply_survives (sane : s.Sane)
    (survives : Survives (Act.exec (handleReplyFindNode w m) s).1) :
    (Act.exec (handleReplyFindNode w m) s).1 = .ok () := by
  cases here : s.mapSearch m.token with
  | none => rw [exec_handleReplyFindNode_unknown here]
  | some q =>
    by_cases good : Search.AllNamed m.contactList ∧ zeroId ∉ Search.keys m.contactList
    · obtain ⟨s₁, after, round⟩ := exec_handleReplyFindNode (w := w) sane here good.1 good.2
      have here₁ : s₁.mapSearch m.token = some q := by rw [after.mapSearch, here]
      obtain ⟨s₂, run, -, -⟩ := exec_round (w := w) (k := m.toId) here₁ (sane.ready _ _ here)
        good.1 (sane.congr after.core).named
      rw [round, run] at survives ⊢
      by_cases safe : RoundSafe q m.contactList m.toId
      · rw [if_pos safe]
      · rw [if_neg safe] at survives
        exact survives.elim
    · rw [exec_handleReplyFindNode_abort sane here good] at survives
      exact survives.elim

theorem reply_step {ep : Endpoint} {body : List UInt8} {out : Except Fault Unit} (sane : s.Sane)
    (reply : IsReply (w.parse body).2) (run : Act.exec (handleReceive w ep body) s = (out, s'))
    (survives : Survives out) :
    ReplyStep w (w.parse body).2 { s with senderEndpoint := ep } s' := by
  rw [exec_handleReceive, handleMessageFrom_reply reply] at run
  generalize (w.parse body).2 = m at reply run ⊢
  have left := congrArg Prod.snd run
  have alive : Survives (Act.exec (Act.rethrowAs localEndpointError (handleMessage w m))
      { s with senderEndpoint := ep }).1 := by
    rw [run]
    exact survives
  rw [Act.exec_rethrowAs_state] at left
  rw [Act.survives_rethrowAs] at alive
  have sane' : ({ s with senderEndpoint := ep } : Node).Sane := sane.congr rfl
  subst left
  rcases reply with type | type | type | type <;> simp only [handleMessage, type] at alive ⊢
  · obtain ⟨ticks, list, pings, run⟩ := exec_handleReplyPing (w := w) sane' m
    rw [run]
    exact .other rfl rfl rfl (fun _ _ there _ => there) fun _ gone => gone
  · rw [exec_handleReplyStore]
    split
    · exact .other rfl rfl rfl (fun _ _ there _ => there) fun _ gone => gone
    · split
      · exact .other rfl rfl rfl (fun _ _ there _ => there) fun _ gone => gone
      · exact .other rfl rfl rfl (fun _ _ there _ => there) fun _ gone => gone
  · exact .contacts type (Prod.ext (reply_survives sane' alive) rfl)
  · rcases handleReplyFindValue_cases (w := w) (s := { s with senderEndpoint := ep }) m with
      same | ⟨q, c, here, callback, ended⟩
    · rw [same]
      exact .other rfl rfl rfl (fun _ _ there _ => there) fun _ gone => gone
    · rw [ended]
      refine .other rfl rfl rfl (fun t q' there other => ?_) fun t gone => withoutSearch_none gone
      by_cases same : t = m.token
      · subst same
        rw [here, Option.some_inj] at there
        subst there
        rw [(sane'.ready _ _ here).uncalled other] at callback
        cases callback
      · rwa [withoutSearch_of_ne same]

end Node

end MiniDht
