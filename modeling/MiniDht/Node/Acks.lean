import MiniDht.Node.Contacts
import MiniDht.Node.Shelf
import MiniDht.Node.Standing

/-!
# Acknowledgements of stores

A store search that ends notes the size of its item once, under its token, whoever it sends
the item to. The first `REPLY_STORE` with that size crosses the note out; one with another
size leaves it, as the report of the mismatch throws. So of several answers only those up
to the first good one are compared with the size.
-/

namespace MiniDht

open Lib

/-- Two peers ping, answer a search with each other, and answer a store. -/
def World.storing : World := .simple
  [{ type := .sendPing, fromId := peerA.key }, { type := .sendPing, fromId := peerB.key },
    { type := .replyFindNode, toId := "0c", contactList := [peerB] },
    { type := .replyFindNode, toId := "0c", contactList := [peerA] },
    { type := .replyStore, fromId := peerA.key }, { type := .replyStore, fromId := peerB.key }]

namespace Search

/-- A store search that ends with few contacts in all takes each of them. -/
theorem picks_perm {q : Search} {lc l : List ContactProto} (ready : q.Ready)
    (store : q.searchType = .store) (ended : q.ends lc = true)
    (only : ∀ c, c ∈ q.shortList ∨ c ∈ lc → c ∈ l) (distinct : (l.map nodeId).Nodup)
    (all : q.ids.toFinset ∪ idSet lc = idSet l) (few : l.length ≤ bucketSize) :
    (q.picks lc).Perm l := by
  have whole : q.picks lc = (q.offer lc).shortList := by rw [picks, if_pos ended, if_pos store]
  have closest := q.offer_closest ready.nearest lc
  have size : (idSet l).card = l.length := by
    rw [idSet, List.toFinset_card_of_nodup distinct, List.length_map]
  have covered : (q.offer lc).ids.toFinset = idSet l := by
    rw [closest.covers (by rw [all, size]; exact few), all]
  have length : (q.offer lc).shortList.length = l.length := by
    rw [← size, ← covered, closest.card_toFinset, ids, List.length_map]
  rw [whole]
  have once : (q.offer lc).shortList.Nodup := List.Nodup.of_map nodeId closest.nodup
  have inside : (q.offer lc).shortList ⊆ l := fun c member => only c (mem_offer member)
  exact (List.subperm_of_subset once inside).perm_of_length_le length.ge

end Search

namespace Node

variable {w : World} {s s' s₀ : Node} {t : Token} {q : Search} {m : MessageProto}

/-! ## What is noted under a token -/

/-- The entry of `map_store_check_val` after a message. -/
def checkValAfter (t : Token) (m : MessageProto) (checkVal : Option UInt64) : Option UInt64 :=
  if m.type = .replyStore ∧ m.token = t ∧ checkVal = some m.checkVal then none else checkVal

/-- Requests change neither the searches nor what stores are waited for. -/
theorem carries_checkVal (t : Token) (search : Option Search) (checkVal : Option UInt64) :
    Carries (fun s => s.mapSearch t = search ∧ s.mapStoreCheckVal t = checkVal) fun _ => True where
  tick _ h := h
  draw _ _ h := h
  log _ _ h _ := h
  own _ _ _ _ _ _ := trivial

theorem handleMessage_request (w : World) {m : MessageProto} (t : Token)
    (request : m.type ∈ [.sendPing, .sendStore, .sendFindNode, .sendFindValue])
    (search : Option Search) (checkVal : Option UInt64) :
    Act.Keeps (fun s => s.mapSearch t = search ∧ s.mapStoreCheckVal t = checkVal)
      (handleMessage w m) := by
  have rule := carries_checkVal t search checkVal
  unfold handleMessage
  cases type : m.type with
  | sendPing => exact rule.replyPing
  | sendStore => exact rule.handleSendStore fun _ _ h => h
  | sendFindNode => exact rule.replyFindNode
  | sendFindValue => exact rule.handleSendFindValue fun _ _ h => h
  | _ => simp [type] at request

/-- An answer to a store crosses out what is noted if it gives the same size. -/
theorem replyStore_checkVal (store : m.type = .replyStore) :
    (Act.exec (handleReplyStore m) s).2.mapSearch = s.mapSearch ∧
      (Act.exec (handleReplyStore m) s).2.mapStoreCheckVal t =
        checkValAfter t m (s.mapStoreCheckVal t) := by
  rw [exec_handleReplyStore, checkValAfter]
  by_cases mine : m.token = t
  · subst mine
    cases noted : s.mapStoreCheckVal m.token with
    | none => simp [noted]
    | some size =>
      by_cases same : m.checkVal = size
      · simp [same, store]
      · simp [same, noted, Ne.symm same]
  · have other : ¬ (m.type = .replyStore ∧ m.token = t ∧ s.mapStoreCheckVal t = some m.checkVal) :=
      fun h => mine h.2.1
    rw [if_neg other]
    cases s.mapStoreCheckVal m.token with
    | none => exact ⟨rfl, rfl⟩
    | some size =>
      by_cases same : m.checkVal = size
      · simp [same, Function.update_of_ne (Ne.symm mine)]
      · simp [same]

/-- Where there is no search under a token, the other answers change nothing there. -/
theorem handleMessage_answer {out : Except Fault Unit} (sane : s.Sane)
    (answer : m.type = .replyPing ∨ m.type = .replyFindNode ∨ m.type = .replyFindValue)
    (run : Act.exec (handleMessage w m) s = (out, s')) (survives : Survives out)
    (gone : s.mapSearch t = none) :
    s'.mapSearch t = none ∧ s'.mapStoreCheckVal t = s.mapStoreCheckVal t := by
  rcases answer with type | type | type <;> simp only [handleMessage, type] at run
  · obtain ⟨ticks, list, pings, handled⟩ := exec_handleReplyPing (w := w) sane m
    rw [handled] at run
    cases run
    exact ⟨gone, rfl⟩
  · have returned : out = .ok () := by
      have ended := reply_survives (w := w) (m := m) sane (by rw [run]; exact survives)
      rwa [run] at ended
    subst returned
    by_cases mine : t = m.token
    · subst mine
      rw [exec_handleReplyFindNode_unknown gone] at run
      cases run
      exact ⟨gone, rfl⟩
    · have same := reply_standing_other sane run mine
      exact ⟨(congrArg Standing.search same).trans gone, congrArg Standing.checkVal same⟩
  · have left := congrArg Prod.snd run
    rcases handleReplyFindValue_cases (w := w) (s := s) m with same | ⟨q, c, -, -, ended⟩
    · rw [same] at left
      subst left
      exact ⟨gone, rfl⟩
    · rw [ended] at left
      subst left
      exact ⟨withoutSearch_none gone, rfl⟩

/-- Where there is no search under a token, an answer changes what is noted there only if it
answers a store. -/
theorem handleMessageFrom_answer {proto : EndpointProto} {out : Except Fault Unit}
    (sane : s.Sane) (request : m.type ∉ [.sendPing, .sendStore, .sendFindNode, .sendFindValue])
    (run : Act.exec (handleMessageFrom w m proto) s = (out, s')) (survives : Survives out)
    (gone : s.mapSearch t = none) :
    s'.mapSearch t = none ∧
      s'.mapStoreCheckVal t = checkValAfter t m (s.mapStoreCheckVal t) := by
  have kinds : m.type = .none ∨ m.type = .replyStore ∨
      (m.type = .replyPing ∨ m.type = .replyFindNode ∨ m.type = .replyFindValue) := by
    cases type : m.type <;> simp_all
  rcases kinds with type | store | answer
  · rw [handleMessageFrom, type] at run
    obtain ⟨-, rfl⟩ := Prod.mk.inj run
    rw [checkValAfter, if_neg (by simp [type])]
    exact ⟨gone, rfl⟩
  · rw [handleMessageFrom_reply (.inr (.inl store)), handleMessage, store] at run
    simp only [] at run
    obtain ⟨search, checkVal⟩ := replyStore_checkVal (s := s) (t := t) store
    rw [run] at search checkVal
    exact ⟨(congrFun search t).trans gone, checkVal⟩
  · have reply : IsReply m := by
      rcases answer with type | type | type <;> simp [IsReply, type]
    have other : ¬ (m.type = .replyStore ∧ m.token = t ∧ s.mapStoreCheckVal t = some m.checkVal) := by
      rintro ⟨store, -⟩
      simp [store] at answer
    rw [handleMessageFrom_reply reply] at run
    rw [checkValAfter, if_neg other]
    exact handleMessage_answer sane answer run survives gone

/-- Where there is no search under a token, a message changes what is noted there only by
answering a store. -/
theorem receive_checkVal {ep : Endpoint} {body : List UInt8} {out : Except Fault Unit}
    (sane : s.Sane) (run : Act.exec (handleReceive w ep body) s = (out, s'))
    (survives : Survives out) (gone : s.mapSearch t = none) :
    s'.mapSearch t = none ∧
      s'.mapStoreCheckVal t = checkValAfter t (w.parse body).2 (s.mapStoreCheckVal t) := by
  by_cases request : (w.parse body).2.type ∈ [.sendPing, .sendStore, .sendFindNode, .sendFindValue]
  · obtain ⟨b, -, kept, received⟩ := exec_receive_request (w := w) sane ep rfl request
    rw [received] at run
    have left := congrArg Prod.snd run
    rw [Act.exec_rethrowAs_state] at left
    have after := handleMessage_request w t request none (s.mapStoreCheckVal t)
      { s with senderEndpoint := ep, ticks := s.ticks + 1, contactList := b } ⟨gone, rfl⟩
    rw [left] at after
    have other : ¬ ((w.parse body).2.type = .replyStore ∧ (w.parse body).2.token = t ∧
        s.mapStoreCheckVal t = some (w.parse body).2.checkVal) := by
      rintro ⟨store, -⟩
      simp [store] at request
    rw [checkValAfter, if_neg other]
    exact after
  · rw [exec_handleReceive] at run
    let s₁ : Node := { s with senderEndpoint := ep }
    have left := congrArg Prod.snd run
    rw [Act.exec_rethrowAs_state] at left
    have alive : Survives (Act.exec (handleMessageFrom w (w.parse body).2 ep.proto) s₁).1 := by
      rw [← Act.survives_rethrowAs, run]
      exact survives
    have sane₁ : s₁.Sane := sane.congr rfl
    exact handleMessageFrom_answer (s := s₁) sane₁ request (Prod.ext rfl left) alive gone

/-! ## The end of a store search -/

/-- The search for storing `b` under the token `t` is over, by a packet or right when it is
begun. -/
inductive Concludes (w : World) (t : Token) (b : DataItemProto) (s s' : Node) : Prop where
  | packet {q : Search} {ep : Endpoint} {body : List UInt8} {out : Except Fault Unit}
      (here : s.mapSearch t = some q) (store : q.searchType = .store) (item : q.buffer = b)
      (run : Act.exec (handleReceive w ep body) s = (out, s')) (survives : Survives out)
      (gone : s'.mapSearch t = none)
  | call {k : String} {out : Except Fault Unit} (mine : tokenAt w s.draws = t)
      (run : Act.exec (iterativeStore w k b) s = (out, s')) (survives : Survives out)
      (gone : s'.mapSearch t = none)

/-- The keys that `SEND_STORE` messages with a token went out to. -/
def storeTargets (t : Token) (es : List Event) : List String :=
  es.filterMap fun
    | .delivered m _ | .overrun m _ =>
      if m.type = .sendStore ∧ m.token = t then some m.toId else none
    | _ => none

/-- `map_store_check_val` notes the size of an item. -/
def checkValOf (b : DataItemProto) : UInt64 := .ofNat b.data.length

theorem storeTargets_append (t : Token) (es es' : List Event) :
    storeTargets t (es ++ es') = storeTargets t es ++ storeTargets t es' :=
  List.filterMap_append

theorem storeTargets_pings {es : List Event} (only : ∀ e ∈ es, e.message.type = .sendPing) :
    storeTargets t es = [] := by
  rw [storeTargets, List.filterMap_eq_nil_iff]
  intro e seen
  have ping := only e seen
  cases e <;> simp_all [Event.message]

/-- A round after which no search is left has ended it. -/
theorem ends_of_gone {s₁ : Node} {lc : List ContactProto} {es : List Event}
    (gone : ((s₁.afterRound q lc t).logged es).mapSearch t = none) : q.ends lc = true := by
  rw [logged_mapSearch, afterRound_at] at gone
  by_contra goes
  simp [goes] at gone

/-- What a round leaves under its token, given what is seen of it. -/
theorem noted_of_round {s₁ : Node} {lc : List ContactProto} {k : String} {es : List Event}
    {old : Option UInt64}
    (store : q.searchType = .store) (ended : q.ends lc = true) (safe : RoundSafe q lc k)
    (only : ∀ e ∈ es, e.message.type = .sendPing) :
    recipients .sendStore t (es ++ roundEvents w s₁ q lc t k) = Search.keys (q.picks lc) ∧
      sizeAfter q lc old = (if recipients .sendStore t (es ++ roundEvents w s₁ q lc t k) = [] then old
        else some (checkValOf q.buffer)) ∧
      (recipients .sendStore t (es ++ roundEvents w s₁ q lc t k) = [] →
        storeTargets t (es ++ roundEvents w s₁ q lc t k) = []) := by
  have type : roundType q lc = .sendStore := by simp [roundType, store, ended]
  have keys : recipients .sendStore t (es ++ roundEvents w s₁ q lc t k) = Search.keys (q.picks lc) := by
    rw [recipients_append, recipients_pings only (by decide), recipients_roundEvents, if_pos type,
      taken_safe safe, List.nil_append]
  refine ⟨keys, ?_, fun none => ?_⟩
  · rw [keys, sizeAfter, checkValOf]
    by_cases nobody : q.picks lc = []
    · simp [nobody, Search.keys]
    · simp [nobody, ended, store, Search.keys]
  · rw [keys] at none
    rw [storeTargets_append, storeTargets_pings only, roundEvents, taken_safe safe, none]
    rfl

/-- A packet that ends a store search has contacts for it. -/
theorem ends_by_contacts {ep : Endpoint} {body : List UInt8} {out : Except Fault Unit}
    (sane : s.Sane) (here : s.mapSearch t = some q) (store : q.searchType = .store)
    (run : Act.exec (handleReceive w ep body) s = (out, s')) (survives : Survives out)
    (gone : s'.mapSearch t = none) :
    (w.parse body).2.token = t ∧
      Act.exec (handleReplyFindNode w (w.parse body).2) { s with senderEndpoint := ep } =
        (.ok (), s') := by
  have stays : s'.mapSearch t ≠ some q := by simp [gone]
  have reply : IsReply (w.parse body).2 := by
    by_contra notReply
    have kinds : (w.parse body).2.type = .none ∨
        (w.parse body).2.type ∈ [.sendPing, .sendStore, .sendFindNode, .sendFindValue] := by
      unfold IsReply at notReply
      cases type : (w.parse body).2.type <;> simp_all
    rcases kinds with type | request
    · rw [exec_handleReceive, handleMessageFrom, type] at run
      have left := congrArg Prod.snd run
      rw [Act.exec_rethrowAs_state] at left
      have same : { s with senderEndpoint := ep } = s' := left
      exact stays (same ▸ here)
    · obtain ⟨c, -, -, received⟩ := exec_receive_request (w := w) sane ep rfl request
      rw [received] at run
      have left := congrArg Prod.snd run
      rw [Act.exec_rethrowAs_state] at left
      have after := handleMessage_request w t request (some q) (s.mapStoreCheckVal t)
        { s with senderEndpoint := ep, ticks := s.ticks + 1, contactList := c } ⟨here, rfl⟩
      rw [left] at after
      exact stays after.1
  have moved : ({ s with senderEndpoint := ep } : Node).Sane := sane.congr rfl
  rcases reply_step sane reply run survives with ⟨-, handled⟩ | ⟨-, -, -, kept, -⟩
  · refine ⟨?_, handled⟩
    by_contra other
    obtain ⟨-, -, same⟩ := reply_frame moved handled
    exact stays ((same t (Ne.symm other)).trans here)
  · exact absurd (kept t q here (by simp [store])) stays

theorem Concludes.reach {b : DataItemProto} (ends : Concludes w t b s s') (reach : Reachable w s) :
    Reachable w s' ∧ s'.mapSearch t = none := by
  cases ends with
  | packet _ _ _ run survives gone => exact ⟨reach.receive run survives, gone⟩
  | call _ run survives gone => exact ⟨reach.store run survives, gone⟩

/-- What is noted under the token when the search is over. -/
theorem Concludes.noted {b : DataItemProto} (sane : s.Sane) (ends : Concludes w t b s s') :
    s'.mapStoreCheckVal t = (if recipients .sendStore t (s.since s') = [] then s.mapStoreCheckVal t
        else some (checkValOf b)) ∧
      (recipients .sendStore t (s.since s') = [] → storeTargets t (s.since s') = []) := by
  cases ends with
  | @packet q ep body out here store item run survives gone =>
    obtain ⟨rfl, handled⟩ := ends_by_contacts sane here store run survives gone
    have moved : ({ s with senderEndpoint := ep } : Node).Sane := sane.congr rfl
    obtain ⟨-, safe, s₁, ⟨ticks, draws, pings, es, rfl, only⟩, -, rfl⟩ :=
      reply_cases moved here handled
    have ended := ends_of_gone gone
    rw [since_of_log (by rw [logged_log, afterRound_log, List.append_assoc]), logged_mapStoreCheckVal, afterRound_mapStoreCheckVal,
      if_pos rfl]
    obtain ⟨-, size, targets⟩ := noted_of_round (w := w) (t := (w.parse body).2.token) store ended
      safe only
    exact ⟨item ▸ size, targets⟩
  | @call k out mine run survives gone =>
    subst mine
    obtain ⟨-, safe, rfl⟩ := begin_cases sane rfl (store_ready s.id k b) run survives
    have ended := ends_of_gone gone
    have log : (s.begun w { Search.new s.id k .store with buffer := b } k).log = s.log := rfl
    rw [since_of_log (by rw [logged_log, afterRound_log, log]), logged_mapStoreCheckVal,
      afterRound_mapStoreCheckVal, if_pos rfl]
    obtain ⟨-, size, targets⟩ := @noted_of_round w (tokenAt w s.draws) _ _ _ _ [] _ rfl ended safe
      (by simp)
    exact ⟨size, targets⟩

/-! ## The answers -/

/-- Packets are received in turn, and the process survives them. -/
inductive Receives (w : World) : Node → List (Endpoint × List UInt8) → Node → Prop where
  | done {s : Node} : Receives w s [] s
  | packet {s s₁ s' : Node} {ep : Endpoint} {body : List UInt8} {out : Except Fault Unit}
      {rest : List (Endpoint × List UInt8)}
      (run : Act.exec (handleReceive w ep body) s = (out, s₁)) (survives : Survives out)
      (later : Receives w s₁ rest s') : Receives w s ((ep, body) :: rest) s'

/-- The messages in packets. -/
def messages (w : World) (packets : List (Endpoint × List UInt8)) : List MessageProto :=
  packets.map fun p => (w.parse p.2).2

/-- An answer to a store under the token, by one of those it went out to. -/
def IsAck (t : Token) (targets : List String) (m : MessageProto) : Prop :=
  m.type = .replyStore ∧ m.token = t ∧ m.fromId ∈ targets

instance (t : Token) (targets : List String) (m : MessageProto) : Decidable (IsAck t targets m) :=
  inferInstanceAs (Decidable (_ ∧ _ ∧ _))

/-- The answers of the targets among messages. -/
def acks (t : Token) (targets : List String) (ms : List MessageProto) : List MessageProto :=
  ms.filter (IsAck t targets)

/-- What should be noted while these messages are still to come: the size, as long as an
answer of a target is among them. -/
def awaited (t : Token) (targets : List String) (size : UInt64) (ms : List MessageProto) :
    Option UInt64 :=
  if acks t targets ms = [] then none else some size

/-- Every answer of a target finds the size of the item noted, to be compared with, and
nothing is noted from the last one on. -/
def Verified (w : World) (t : Token) (targets : List String) (size : UInt64) (s : Node)
    (packets : List (Endpoint × List UInt8)) : Prop :=
  ∀ early late s₁, packets = early ++ late → Receives w s early s₁ →
    s₁.mapStoreCheckVal t = awaited t targets size (messages w late)

/-- Of the answers under the token up to a target's last one, that one and no other gives
the size of the item. -/
def Sifted (t : Token) (targets : List String) (size : UInt64) : List MessageProto → Prop
  | [] => True
  | m :: rest =>
    (acks t targets (m :: rest) ≠ [] → m.type = .replyStore → m.token = t →
      (m.checkVal = size ↔ acks t targets rest = [])) ∧ Sifted t targets size rest

variable {targets : List String} {size : UInt64} {packets : List (Endpoint × List UInt8)}

theorem acks_cons (t : Token) (targets : List String) (m : MessageProto) (rest : List MessageProto) :
    acks t targets (m :: rest) = [] ↔ ¬ IsAck t targets m ∧ acks t targets rest = [] := by
  by_cases ack : IsAck t targets m <;> simp [acks, ack]

/-- What should be noted is kept up by one message exactly if it gives the size just when it
is the last answer. -/
theorem checkValAfter_awaited (rest : List MessageProto) :
    checkValAfter t m (awaited t targets size (m :: rest)) = awaited t targets size rest ↔
      (acks t targets (m :: rest) ≠ [] → m.type = .replyStore → m.token = t →
        (m.checkVal = size ↔ acks t targets rest = [])) := by
  have ends := acks_cons t targets m rest
  by_cases done : acks t targets (m :: rest) = []
  · simp [awaited, checkValAfter, done, (ends.mp done).2]
  · by_cases answer : m.type = .replyStore ∧ m.token = t
    · obtain ⟨store, token⟩ := answer
      by_cases last : acks t targets rest = []
      · simp [awaited, checkValAfter, done, last, store, token, eq_comm]
      · simp [awaited, checkValAfter, done, last, store, token, eq_comm]
    · have plain : ¬ IsAck t targets m := fun ack => answer ⟨ack.1, ack.2.1⟩
      have more : acks t targets rest ≠ [] := fun last => done (ends.mpr ⟨plain, last⟩)
      have other : ¬ (m.type = .replyStore ∧ m.token = t ∧ some size = some m.checkVal) :=
        fun h => answer ⟨h.1, h.2.1⟩
      simp only [awaited, checkValAfter, if_neg done, if_neg more, if_neg other, true_iff]
      exact fun _ store token => absurd ⟨store, token⟩ answer

/-- Receiving packets is deterministic. -/
theorem Receives.unique {s₁ s₂ : Node} (run : Receives w s packets s₁)
    (run' : Receives w s packets s₂) : s₁ = s₂ := by
  induction run with
  | done =>
    cases run'
    rfl
  | packet run _ _ ih =>
    cases run' with
    | packet other _ later =>
      rw [run] at other
      cases other
      exact ih later

/-- The packets after the first. -/
theorem verified_cons {s₁ : Node} {ep : Endpoint} {body : List UInt8} {out : Except Fault Unit}
    (run : Act.exec (handleReceive w ep body) s = (out, s₁)) (survives : Survives out) :
    Verified w t targets size s ((ep, body) :: packets) ↔
      s.mapStoreCheckVal t = awaited t targets size (messages w ((ep, body) :: packets)) ∧
        Verified w t targets size s₁ packets := by
  constructor
  · intro all
    refine ⟨all [] _ s rfl .done, fun early late s₂ split later => ?_⟩
    exact all ((ep, body) :: early) late s₂ (by rw [split, List.cons_append])
      (.packet run survives later)
  · rintro ⟨first, rest⟩ early late s₂ split later
    cases later with
    | done =>
      rw [List.nil_append] at split
      rw [← split]
      exact first
    | @packet _ _ _ ep' body' _ early' run' _ later =>
      rw [List.cons_append, List.cons.injEq, Prod.mk.injEq] at split
      obtain ⟨⟨rfl, rfl⟩, rfl⟩ := split
      rw [run] at run'
      cases run'
      exact rest early' late s₂ rfl later

/-- Once no search is left under the token, the entry is right throughout if it is right at
first and the answers are sifted. -/
theorem verified_run (sane : s.Sane) (run : Receives w s packets s') (gone : s.mapSearch t = none) :
    Verified w t targets size s packets ↔
      s.mapStoreCheckVal t = awaited t targets size (messages w packets) ∧
        Sifted t targets size (messages w packets) := by
  induction run with
  | done =>
    constructor
    · exact fun all => ⟨all [] [] _ rfl .done, trivial⟩
    · rintro ⟨first, -⟩ early late s₁ split run
      obtain ⟨rfl, rfl⟩ := List.nil_eq_append_iff.mp split
      cases run
      exact first
  | @packet s s₁ s' ep body out rest run survives later ih =>
    obtain ⟨gone₁, after⟩ := receive_checkVal sane run survives gone
    have sane₁ : s₁.Sane := by
      have kept := preserves_handleReceive (w := w) ep body s sane (by rw [run]; exact survives)
      rwa [run] at kept
    rw [verified_cons run survives, ih sane₁ gone₁, after]
    have step := @checkValAfter_awaited t (w.parse body).2 targets size (messages w rest)
    constructor
    · rintro ⟨first, second, sifted⟩
      rw [first] at second
      exact ⟨first, step.mp second, sifted⟩
    · rintro ⟨first, good, sifted⟩
      refine ⟨first, ?_, sifted⟩
      rw [first]
      exact step.mpr good

/-! ## What goes out to known contacts -/

/-- A contact that a message can go out to. -/
def Routed (w : World) (s : Node) (key : String) : Prop :=
  key ≠ s.id ∧ ∃ c, s.contactList.lookup key = some c ∧ (w.resolve c.ep).isSome

theorem storeTargets_sendEvents (routed : Routed w s m.toId) (store : m.type = .sendStore)
    (token : m.token = t) : storeTargets t (sendEvents w s.id s.contactList m) = [m.toId] := by
  obtain ⟨other, c, found, resolves⟩ := routed
  obtain ⟨uep, resolved⟩ := Option.isSome_iff_exists.mp resolves
  simp only [sendEvents, if_neg other, found, handOver, resolved]
  split <;> simp [storeTargets, store, token]

/-- Known contacts are all sent the item. -/
theorem storeTargets_roundEvents {lc : List ContactProto} {k : String}
    (type : roundType q lc = .sendStore) (routed : ∀ c ∈ taken q lc k, Routed w s c.key) :
    storeTargets t (roundEvents w s q lc t k) = Search.keys (taken q lc k) := by
  have sent (c : ContactProto) (member : c ∈ taken q lc k) :
      storeTargets t (sendEvents w s.id s.contactList (roundMessage q lc s.id k t c.key)) = [c.key] := by
    have known : Routed w s (roundMessage q lc s.id k t c.key).toId := by
      rw [roundMessage_toId]
      exact routed c member
    rw [storeTargets_sendEvents known (by rw [roundMessage_type, type]) (roundMessage_token ..),
      roundMessage_toId]
  rw [roundEvents, Search.keys]
  generalize taken q lc k = l at sent
  induction l with
  | nil => rfl
  | cons c rest ih =>
    rw [List.map_cons, List.flatMap_cons, storeTargets_append, sent c List.mem_cons_self,
      ih fun d member => sent d (List.mem_cons_of_mem _ member)]
    rfl

/-- A packet with contacts for a search, all in order. -/
theorem receive_contacts {ep : Endpoint} {body : List UInt8} (sane : s.Sane)
    (here : s.mapSearch m.token = some q) (parsed : (w.parse body).2 = m)
    (type : m.type = .replyFindNode) (order : InOrder q m) :
    ∃ s', Act.exec (handleReceive w ep body) s = (.ok (), s') ∧ s'.id = s.id ∧
      s'.contactList = s.contactList ∧
      s'.mapSearch m.token =
        (if q.ends m.contactList then none else some (q.next m.contactList)) ∧
      ∃ es, (∀ e ∈ es, e.message.type = .sendPing) ∧
        s'.log = s.log ++ (es ++ roundEvents w s q m.contactList m.token m.toId) := by
  have moved : ({ s with senderEndpoint := ep } : Node).Sane := sane.congr rfl
  obtain ⟨s', run, -⟩ := reply_returns (w := w) moved here order.1 order.2.1 order.2.2
  obtain ⟨id, list⟩ := reply_table moved run
  obtain ⟨es, only, log⟩ := reply_log moved here run
  refine ⟨s', ?_, id, list, reply_search moved here run, es, only, log⟩
  rw [exec_handleReceive, parsed, handleMessageFrom_reply (.inr (.inr (.inl type))),
    Act.exec_rethrowAs_ok, handleMessage, type]
  exact run

/-- Answers to stores do not stop the process. -/
theorem receives_acks (only : ∀ m ∈ messages w packets, m.type = .replyStore) :
    ∃ s', Receives w s packets s' := by
  induction packets generalizing s with
  | nil => exact ⟨s, .done⟩
  | cons p rest ih =>
    obtain ⟨ep, body⟩ := p
    have store : (w.parse body).2.type = .replyStore := only _ List.mem_cons_self
    cases run : Act.exec (handleReceive w ep body) s with
    | mk out s₁ =>
      have survives : Survives out := by
        have ended := congrArg Prod.fst run
        subst ended
        rw [exec_handleReceive, handleMessageFrom_reply (.inr (.inl store)), Act.survives_rethrowAs,
          handleMessage, store]
        simp only []
        rw [exec_handleReplyStore]
        split
        · trivial
        · split <;> trivial
      obtain ⟨s', later⟩ := ih (s := s₁) fun m member => only m (List.mem_cons_of_mem _ member)
      exact ⟨s', .packet run survives later⟩

/-- **Acknowledgements.** After the end of a store search, when each of those the item went
out to answers once, every one of these answers is compared with the size of the item, and
the entry is gone exactly when all are in, if and only if the first answer that gives the
size is the last one of a target. Where nobody was sent the item, nothing must have been
noted before. -/
theorem verified_iff {b : DataItemProto} (reach : Reachable w s₀) (ends : Concludes w t b s₀ s)
    (run : Receives w s packets s')
    (each : ((acks t (storeTargets t (s₀.since s)) (messages w packets)).map (·.fromId)).Perm
      (storeTargets t (s₀.since s))) :
    Verified w t (storeTargets t (s₀.since s)) (checkValOf b) s packets ↔
      (storeTargets t (s₀.since s) = [] →
        recipients .sendStore t (s₀.since s) = [] ∧ s₀.mapStoreCheckVal t = none) ∧
      Sifted t (storeTargets t (s₀.since s)) (checkValOf b) (messages w packets) := by
  obtain ⟨noted, out⟩ := ends.noted reach.sane
  obtain ⟨after, gone⟩ := ends.reach reach
  rw [verified_run after.sane run gone, noted]
  apply and_congr_left'
  have pending : acks t (storeTargets t (s₀.since s)) (messages w packets) = [] ↔
      storeTargets t (s₀.since s) = [] := by
    rw [← List.map_eq_nil_iff (f := (·.fromId))]
    constructor
    · intro nobody
      rw [nobody] at each
      exact each.symm.eq_nil
    · intro nobody
      rw [nobody] at each
      rw [nobody]
      exact each.eq_nil
  simp only [awaited, pending]
  by_cases nobody : storeTargets t (s₀.since s) = []
  · by_cases none : recipients .sendStore t (s₀.since s) = []
    · simp [nobody, none]
    · simp [nobody, none]
  · have some' : recipients .sendStore t (s₀.since s) ≠ [] := fun none => nobody (out none)
    simp [nobody, some']

/-- The first peer has been asked. -/
theorem storing_asked :
    ∃ s₀ s q, s.id = keyToString 1 ∧ AskedOne .storing s₀ s q "0c" {} peerA :=
  askedOne_pinged _ {}

/-- The contacts of the peer that ends a search, all routed, are its targets. -/
theorem storing_ends (reach : Reachable .storing s) (here : s.mapSearch 0 = some q)
    (store : q.searchType = .store) (item : q.buffer = {}) (ended : q.ends [peerA] = true)
    {l : List ContactProto} (picks : (q.picks [peerA]).Perm l)
    (routed : ∀ c ∈ l, Routed .storing s c.key) (nonzero : zeroId ∉ Search.keys l) :
    ∃ s', Concludes .storing 0 {} s s' ∧
      (storeTargets 0 (s.since s')).Perm (Search.keys l) := by
  have zero : zeroId ∉ Search.keys (q.picks [peerA]) := by
    rw [Search.keys, (picks.map _).mem_iff]
    exact nonzero
  have safe : RoundSafe q [peerA] "0c" := ⟨zero, fun _ => by decide⟩
  let m : MessageProto := { type := .replyFindNode, toId := "0c", contactList := [peerA] }
  have order : InOrder q m := ⟨by decide, by decide +kernel, safe⟩
  obtain ⟨s', run, -, -, gone, es, only, log⟩ :=
    @receive_contacts .storing s q m s.senderEndpoint [3] reach.sane here rfl rfl order
  rw [if_pos ended] at gone
  refine ⟨s', .packet here store item run trivial gone, ?_⟩
  have type : roundType q [peerA] = .sendStore := by simp [roundType, store, ended]
  have known : ∀ c ∈ taken q [peerA] "0c", Routed .storing s c.key := by
    rw [taken_safe safe]
    exact fun c member => routed c (picks.mem_iff.mp member)
  rw [since_of_log log, storeTargets_append, storeTargets_pings only, List.nil_append,
    storeTargets_roundEvents type known, taken_safe safe]
  exact picks.map _

theorem AskedOne.routed {s₀ : Node} {k : String} {b : DataItemProto} {a : ContactProto}
    (asked : AskedOne w s₀ s q k b a) (other : a.key ≠ s.id) (resolves : (w.resolve a.ep).isSome) :
    Routed w s a.key := by
  obtain ⟨c, found, same⟩ := asked.known
  exact ⟨other, c, found, same ▸ resolves⟩

/-- One target, whose answer is right. -/
theorem verified_iff_one :
    ∃ s₀ s s' : Node, Reachable .storing s₀ ∧ Concludes .storing 0 {} s₀ s ∧
      Receives .storing s [(s.senderEndpoint, [4])] s' ∧
      (Verified .storing 0 (storeTargets 0 (s₀.since s)) (checkValOf {}) s
          [(s.senderEndpoint, [4])] ↔
        (storeTargets 0 (s₀.since s) = [] →
          recipients .sendStore 0 (s₀.since s) = [] ∧ s₀.mapStoreCheckVal 0 = none) ∧
        Sifted 0 (storeTargets 0 (s₀.since s)) (checkValOf {})
          (messages .storing [(s.senderEndpoint, [4])])) := by
  obtain ⟨s₁, s₀, q, own, asked⟩ := storing_asked
  have here := asked.here
  rw [World.storing, tokenAt_simple] at here
  have ended : q.ends [peerA] = true := Search.ends_again asked.list asked.busy asked.store rfl
  have picks : (q.picks [peerA]).Perm [peerA] := by
    refine Search.picks_perm (asked.reach.sane.ready _ _ here) asked.store ended ?_ (by simp)
      ?_ (by decide)
    · simp [asked.list]
    · simp [Search.ids, idSet, asked.list]
  obtain ⟨s, ends, targets⟩ := storing_ends asked.reach here asked.store asked.item ended picks
    (by simpa using asked.routed (own ▸ (by decide)) (by decide)) (by decide)
  obtain ⟨s', run⟩ := @receives_acks .storing s [(s.senderEndpoint, [4])]
    (by simp [messages, World.storing, World.simple])
  have single : storeTargets 0 (s₀.since s) = [peerA.key] := List.perm_singleton.mp targets
  refine ⟨s₀, s, s', asked.reach, ends, run, verified_iff asked.reach ends run ?_⟩
  have heard : messages .storing [(s.senderEndpoint, [4])] =
      [{ type := .replyStore, fromId := peerA.key }] := rfl
  rw [single, heard]
  decide

theorem AskedOne.few {s₀ : Node} {k : String} {b : DataItemProto} {a : ContactProto}
    (asked : AskedOne w s₀ s q k b a) : s.contactList.entries.length < bucketSize := by
  have filed := asked.reach.table.filed
  have only : s.contactList.entries.map (·.2.key) ⊆ [a.key] := by
    intro key member
    obtain ⟨e, entry, rfl⟩ := List.mem_map.mp member
    by_contra other
    have nobody := asked.others e.2.key fun same => other (same ▸ List.mem_singleton_self _)
    rw [filed.lookup_of_mem entry] at nobody
    cases nobody
  have one := (List.subperm_of_subset filed.distinct only).length_le
  rw [List.length_map] at one
  have single : [a.key].length = 1 := rfl
  unfold bucketSize
  omega

/-- The second peer becomes a contact beside the first. -/
theorem storing_met {s₀ : Node} (own : s.id = keyToString 1)
    (asked : AskedOne .storing s₀ s q "0c" {} peerA) :
    ∃ s', Reachable .storing s' ∧ s'.mapSearch = s.mapSearch ∧ Routed .storing s' peerA.key ∧
      Routed .storing s' peerB.key := by
  let ep : Endpoint := { address := "10.0.0.2", port := 1, printed := by simp }
  have proto : ep.proto = peerB.ep := by decide +kernel
  let m : MessageProto := { type := .sendPing, fromId := peerB.key }
  obtain ⟨b, added, sane, received⟩ :=
    @exec_receive_request .storing s m asked.reach.sane ep [1] rfl (by decide)
  have nonzero : m.fromId ≠ zeroId := by decide
  have answers : handleMessage .storing m = replyPing .storing m.fromId m.token := rfl
  have replied := exec_replyPing (w := .storing) (t := m.token) nonzero sane.named
  rw [answers, Act.exec_rethrowAs_ok.mpr replied] at received
  have filed := asked.reach.table.filed
  have strange : peerB.key ≠ s.contactList.localKey := by
    rw [asked.reach.table.localKey_eq, own]
    decide
  refine ⟨_, asked.reach.receive received trivial, rfl, ?_, ?_⟩
  · obtain ⟨other, c, found, resolves⟩ := asked.routed (own ▸ (by decide)) (by decide)
    exact ⟨other, c, filed.lookup_kept asked.few found (by decide) added, resolves⟩
  · refine ⟨?_, _, filed.lookup_added strange added, ?_⟩
    · show peerB.key ≠ s.id
      rw [own]
      decide
    · show (World.storing.resolve ep.proto).isSome
      rw [proto]
      decide

/-- A search that asks the first peer, hears of the second, and then of the first again. -/
theorem picks_both {a b : ContactProto} (ready : q.Ready) (list : q.shortList = [a])
    (busy : q.mapNodeBusy = {a.key}) (store : q.searchType = .store) (apart : nodeId a ≠ nodeId b)
    (next : (q.next [b]).Ready) : ((q.next [b]).picks [a]).Perm [a, b] := by
  have ended := Search.ends_last ready list busy store apart
  have card : ({nodeId a, nodeId b} : Finset (BitVec keySize)).card = 2 := Finset.card_pair apart
  have known : q.ids.toFinset ∪ idSet [b] = {nodeId a, nodeId b} := by
    simp [Search.ids, list, idSet]
  have covers := (q.offer_closest ready.nearest [b]).covers
  rw [known, card] at covers
  refine Search.picks_perm next store ended ?_ (by simpa using apart) ?_
    (by simp [bucketSize])
  · intro c member
    rcases member with old | again
    · rcases @Search.mem_offer q [b] _ old with older | newer
      · rw [list] at older
        exact List.mem_cons.mpr (.inl (List.mem_singleton.mp older))
      · exact List.mem_cons_of_mem _ newer
    · exact List.mem_cons.mpr (.inl (List.mem_singleton.mp again))
  · have again : idSet [a] = {nodeId a} := by simp [idSet]
    rw [Search.next_ids, covers (by decide), again, Finset.union_comm, Finset.singleton_union,
      Finset.insert_idem]
    simp [idSet]

/-- Both peers are targets. -/
theorem storing_both :
    ∃ s₀ s : Node, Reachable .storing s₀ ∧ Concludes .storing 0 {} s₀ s ∧
      (storeTargets 0 (s₀.since s)).Perm [peerA.key, peerB.key] := by
  obtain ⟨s₁, s₂, q, own, asked⟩ := storing_asked
  have here₂ := asked.here
  rw [World.storing, tokenAt_simple] at here₂
  have apart : nodeId peerA ≠ nodeId peerB := by decide +kernel
  obtain ⟨s₃, reach₃, searches, routedA, routedB⟩ := storing_met own asked
  have here₃ : s₃.mapSearch 0 = some q := by rw [searches, here₂]
  have ready := reach₃.sane.ready _ _ here₃
  obtain ⟨goes, -⟩ := Search.ends_other ready asked.list asked.busy apart
  -- the first packet tells of the second peer, and the search goes on
  have zero : zeroId ∉ Search.keys (q.picks [peerB]) := by
    intro member
    obtain ⟨c, picked, key⟩ := List.mem_map.mp member
    rcases Search.mem_offer (Search.picks_subset picked) with old | new
    · rw [asked.list] at old
      rw [List.mem_singleton.mp old] at key
      exact absurd key (by decide)
    · rw [List.mem_singleton.mp new] at key
      exact absurd key (by decide)
  let m : MessageProto := { type := .replyFindNode, toId := "0c", contactList := [peerB] }
  have order : InOrder q m := ⟨by decide, by decide +kernel, zero, fun _ => by decide⟩
  obtain ⟨s₄, run₄, id, list, next, -⟩ :=
    @receive_contacts .storing s₃ q m s₃.senderEndpoint [2] reach₃.sane here₃ rfl rfl order
  have reach₄ := reach₃.receive run₄ trivial
  have here₄ : s₄.mapSearch 0 = some (q.next [peerB]) := by
    rw [goes] at next
    exact next
  -- the second packet tells of the first again, and ends it
  have last := Search.ends_last ready asked.list asked.busy asked.store apart
  have picks := picks_both ready asked.list asked.busy asked.store apart
    (reach₄.sane.ready _ _ here₄)
  have routed : ∀ c ∈ [peerA, peerB], Routed .storing s₄ c.key := by
    unfold Routed
    rw [id, list]
    simpa using ⟨routedA, routedB⟩
  obtain ⟨s, ends, targets⟩ := storing_ends reach₄ here₄ asked.store asked.item last picks routed
    (by decide)
  exact ⟨s₄, s, reach₄, ends, targets⟩

/-- Two targets, both of whose answers are right: the second is not compared with
anything. -/
theorem second_unverified :
    ∃ (s₀ s s' : Node) (packets : List (Endpoint × List UInt8)), Reachable .storing s₀ ∧
      Concludes .storing 0 {} s₀ s ∧ Receives .storing s packets s' ∧
      (∀ m ∈ messages .storing packets, m.checkVal = checkValOf {}) ∧
      ((acks 0 (storeTargets 0 (s₀.since s)) (messages .storing packets)).map (·.fromId)).Perm
        (storeTargets 0 (s₀.since s)) ∧
      ¬ Verified .storing 0 (storeTargets 0 (s₀.since s)) (checkValOf {}) s packets := by
  obtain ⟨s₀, s, reach, ends, targets⟩ := storing_both
  let packets : List (Endpoint × List UInt8) := [(s.senderEndpoint, [4]), (s.senderEndpoint, [5])]
  have heard : messages .storing packets =
      [{ type := .replyStore, fromId := peerA.key }, { type := .replyStore, fromId := peerB.key }] := rfl
  obtain ⟨s', run⟩ := @receives_acks .storing s packets (by rw [heard]; decide)
  have both : acks 0 (storeTargets 0 (s₀.since s)) (messages .storing packets) =
      messages .storing packets := by
    rw [acks, List.filter_eq_self, heard]
    simp [IsAck, targets.mem_iff]
  refine ⟨s₀, s, s', packets, reach, ends, run, ?_, ?_, ?_⟩
  · rw [heard]
    decide
  · rw [both, heard]
    exact targets.symm
  · obtain ⟨after, gone⟩ := ends.reach reach
    rw [verified_run after.sane run gone]
    rintro ⟨-, first, -⟩
    have some' : acks 0 (storeTargets 0 (s₀.since s)) (messages .storing packets) ≠ [] := by
      rw [both, heard]
      simp
    have done := (first some' rfl rfl).mp rfl
    have member : peerB.key ∈ storeTargets 0 (s₀.since s) := targets.mem_iff.mpr (by decide)
    rw [acks, List.filter_eq_nil_iff] at done
    exact done _ List.mem_cons_self (decide_eq_true ⟨rfl, rfl, member⟩)

end Node

end MiniDht
