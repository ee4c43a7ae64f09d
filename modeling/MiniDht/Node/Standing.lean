import MiniDht.Lib.Apart
import MiniDht.Node.Meeting

/-!
# Searches side by side

Replies with contacts for several searches come in any order. A reply changes what stands
under its own token, and depends on nothing that another search changes, so the searches
are parts of the node that are `Lib.Apart`.
-/

namespace MiniDht

open Lib

/-- A world in which the first two tokens drawn differ. -/
def World.drawing : World := { World.simple [] with random := fun n => n / 33 }

namespace Node

variable {w : World} {s s' : Node} {t : Token} {q : Search} {m : MessageProto}

/-- The requests of searches. -/
def searchTypes : List MessageType := [.sendFindNode, .sendFindValue, .sendStore]

/-- What is seen of the requests made under a token. -/
def seenUnder (t : Token) (es : List Event) : List Event :=
  es.filter fun e => e.message.type ∈ searchTypes ∧ e.message.token = t

theorem seenUnder_append (t : Token) (es es' : List Event) :
    seenUnder t (es ++ es') = seenUnder t es ++ seenUnder t es' :=
  List.filter_append ..

theorem seenUnder_pings {es : List Event} (only : ∀ e ∈ es, e.message.type = .sendPing) (t : Token) :
    seenUnder t es = [] := by
  rw [seenUnder, List.filter_eq_nil_iff]
  intro e seen
  simp [only e seen, searchTypes]

theorem roundType_mem (q : Search) (lc : List ContactProto) : roundType q lc ∈ searchTypes := by
  unfold roundType
  split
  · decide
  · decide
  · split <;> decide

/-- What is seen of a round is seen under its token. -/
theorem seenUnder_roundEvents (s : Node) (q : Search) (lc : List ContactProto) (k : String)
    (t t' : Token) :
    seenUnder t' (roundEvents w s q lc t k) = if t' = t then roundEvents w s q lc t k else [] := by
  have about : ∀ e ∈ roundEvents w s q lc t k,
      e.message.type ∈ searchTypes ∧ e.message.token = t := by
    intro e seen
    obtain ⟨c, -, sent⟩ := mem_roundEvents.mp seen
    rw [message_of_mem_sendEvents sent, roundMessage_type, roundMessage_token]
    exact ⟨roundType_mem q lc, rfl⟩
  by_cases mine : t' = t
  · rw [if_pos mine, seenUnder, List.filter_eq_self]
    intro e seen
    simpa [mine] using about e seen
  · rw [if_neg mine, seenUnder, List.filter_eq_nil_iff]
    intro e seen
    simp [(about e seen).2, Ne.symm mine]

/-- How things stand under a token: its entries in `map_search` and `map_store_check_val`,
and what has been seen of the requests made under it. -/
structure Standing where
  search : Option Search
  checkVal : Option UInt64
  seen : List Event

def standing (s : Node) (t : Token) : Standing where
  search := s.mapSearch t
  checkVal := s.mapStoreCheckVal t
  seen := seenUnder t s.log

/-- Everything a reply depends on is in order. -/
def InOrder (q : Search) (m : MessageProto) : Prop :=
  Search.AllNamed m.contactList ∧ zeroId ∉ Search.keys m.contactList ∧
    RoundSafe q m.contactList m.toId

instance (q : Search) (m : MessageProto) : Decidable (InOrder q m) :=
  inferInstanceAs (Decidable (_ ∧ _ ∧ _))

/-- The check value after a round: the item was sent if a store search has ended. -/
def sizeAfter (q : Search) (lc : List ContactProto) (old : Option UInt64) : Option UInt64 :=
  if q.ends lc ∧ q.searchType = .store ∧ q.picks lc ≠ [] then some (.ofNat q.buffer.data.length)
  else old

/-- How things stand after a reply, on a node with the id and the contact list of `s`. -/
def Standing.next (w : World) (s : Node) (m : MessageProto) (v : Standing) : Option Standing :=
  match v.search with
  | none => some v
  | some q =>
    if InOrder q m then
      some
        { search := if q.ends m.contactList then none else some (q.next m.contactList)
          checkVal := sizeAfter q m.contactList v.checkVal
          seen := v.seen ++ roundEvents w s q m.contactList m.token m.toId }
    else none

theorem afterRound_mapStoreCheckVal (s : Node) (q : Search) (lc : List ContactProto)
    (t t' : Token) :
    (s.afterRound q lc t).mapStoreCheckVal t' =
      if t' = t then sizeAfter q lc (s.mapStoreCheckVal t) else s.mapStoreCheckVal t' := by
  unfold afterRound sizeAfter
  by_cases ended : q.ends lc = true
  · by_cases store : q.searchType = .store
    · by_cases none : q.picks lc = []
      · by_cases mine : t' = t <;> simp [ended, store, none, notedAll, withoutSearch, mine]
      · by_cases mine : t' = t
        · simp [ended, store, none, notedAll, withoutSearch, noted, mine]
        · simp [ended, store, none, notedAll, withoutSearch, noted, mine]
    · by_cases mine : t' = t <;> simp [ended, store, withoutSearch, mine]
  · by_cases mine : t' = t <;> simp [ended, withSearch, mine]

theorem roundEvents_congr {s s' : Node} (id : s'.id = s.id) (list : s'.contactList = s.contactList)
    (q : Search) (lc : List ContactProto) (t : Token) (k : String) :
    roundEvents w s' q lc t k = roundEvents w s q lc t k := by
  rw [roundEvents, roundEvents, id, list]

/-- A reply changes the id and the contact list of no node. -/
theorem reply_table (sane : s.Sane) (run : Act.exec (handleReplyFindNode w m) s = (.ok (), s')) :
    s'.id = s.id ∧ s'.contactList = s.contactList := by
  cases here : s.mapSearch m.token with
  | none =>
    rw [reply_unknown here run]
    exact ⟨rfl, rfl⟩
  | some q =>
    obtain ⟨-, -, s₁, ⟨ticks, draws, pings, es, rfl, -⟩, -, rfl⟩ := reply_cases sane here run
    exact ⟨afterRound_id .., afterRound_contactList ..⟩

/-- Under the other tokens everything stands as before. -/
theorem reply_standing_other (sane : s.Sane)
    (run : Act.exec (handleReplyFindNode w m) s = (.ok (), s')) (other : t ≠ m.token) :
    s'.standing t = s.standing t := by
  cases here : s.mapSearch m.token with
  | none =>
    rw [reply_unknown here run]
  | some q =>
    obtain ⟨-, -, s₁, ⟨ticks, draws, pings, es, rfl, only⟩, -, rfl⟩ := reply_cases sane here run
    simp only [standing, logged_mapSearch, afterRound_mapSearch, Function.update_of_ne other,
      logged_mapStoreCheckVal, afterRound_mapStoreCheckVal, if_neg other, logged_log, afterRound_log,
      seenUnder_append, seenUnder_pings only, seenUnder_roundEvents, List.append_nil]

/-- Under its own token a reply leaves what `Standing.next` says. -/
theorem reply_standing (sane : s.Sane)
    (run : Act.exec (handleReplyFindNode w m) s = (.ok (), s')) :
    (s.standing m.token).next w s m = some (s'.standing m.token) := by
  unfold Standing.next
  cases here : s.mapSearch m.token with
  | none =>
    rw [reply_unknown here run]
    simp [standing, here]
  | some q =>
    have offered := reply_offered sane here run
    obtain ⟨-, safe, s₁, ⟨ticks, draws, pings, es, rfl, only⟩, -, rfl⟩ := reply_cases sane here run
    have order : InOrder q m := ⟨offered.1, offered.2, safe⟩
    simp only [standing, here, if_pos order, logged_mapSearch, afterRound_at,
      logged_mapStoreCheckVal, afterRound_mapStoreCheckVal, if_true, logged_log, afterRound_log,
      seenUnder_append, seenUnder_pings only, seenUnder_roundEvents, List.append_nil]
    rfl

/-- A reply with something out of order fails an assert. -/
theorem reply_aborts (sane : s.Sane) (here : s.mapSearch m.token = some q) (bad : ¬ InOrder q m) :
    (Act.exec (handleReplyFindNode w m) s).1 = .error .assertion := by
  by_cases offered : Search.AllNamed m.contactList ∧ zeroId ∉ Search.keys m.contactList
  · have risky : ¬ RoundSafe q m.contactList m.toId := fun safe => bad ⟨offered.1, offered.2, safe⟩
    obtain ⟨s₁, after, round⟩ := exec_handleReplyFindNode (w := w) sane here offered.1 offered.2
    have here₁ : s₁.mapSearch m.token = some q := by rw [after.mapSearch, here]
    rw [round]
    exact exec_replyIterative_abort here₁ (sane.ready _ _ here) offered.1
      (sane.congr after.core).named risky
  · exact exec_handleReplyFindNode_abort sane here offered

/-- A reply goes through or fails an assert, as the search under its token has it. -/
theorem reply_outcome (sane : s.Sane) :
    (Act.exec (handleReplyFindNode w m) s).1 =
      if ((s.standing m.token).next w s m).isSome then .ok () else .error .assertion := by
  unfold Standing.next
  cases here : s.mapSearch m.token with
  | none =>
    rw [exec_handleReplyFindNode_unknown here]
    simp [standing, here]
  | some q =>
    by_cases order : InOrder q m
    · obtain ⟨s', run, -⟩ := reply_returns (w := w) sane here order.1 order.2.1 order.2.2
      rw [run]
      simp [standing, here, order]
    · rw [reply_aborts sane here order]
      simp [standing, here, order]

/-! ## Runs -/

/-- Replies with contacts, handled in turn. -/
def handleReplies (w : World) : List MessageProto → NodeM Unit
  | [] => return ()
  | m :: rest => do
    handleReplyFindNode w m
    handleReplies w rest

theorem next_congr {s₁ : Node} (id : s₁.id = s.id) (list : s₁.contactList = s.contactList)
    (v : Standing) : v.next w s₁ m = v.next w s m := by
  unfold Standing.next
  split
  · rfl
  · rw [roundEvents_congr id list]

/-- The searches of a node with the id and the contact list of `s₀`, as parts of it. -/
def searches (w : World) (s₀ : Node) : Apart Node MessageProto Token Standing where
  step m s :=
    match Act.exec (handleReplyFindNode w m) s with
    | (.ok (), s') => some s'
    | (.error _, _) => none
  addressee m := m.token
  part t s := s.standing t
  next m v := v.next w s₀ m
  inv s := s.Sane ∧ s.id = s₀.id ∧ s.contactList = s₀.contactList
  keeps := by
    rintro m s s' ⟨sane, id, list⟩ step
    split at step
    · rename_i s₁ run
      cases step
      obtain ⟨id', list'⟩ := reply_table sane run
      exact ⟨reply_sane sane run, id'.trans id, list'.trans list⟩
    · cases step
  own := by
    rintro m s ⟨sane, id, list⟩
    have outcome := reply_outcome (w := w) (m := m) sane
    rw [next_congr id list] at outcome
    split
    · rename_i s₁ run
      rw [← next_congr id list, reply_standing sane run]
      rfl
    · rename_i e s₁ run
      rw [run] at outcome
      split at outcome
      · cases outcome
      · rename_i stuck
        exact (Option.not_isSome_iff_eq_none.mp stuck).symm
  others := by
    rintro m s s' t ⟨sane, -, -⟩ step other
    split at step
    · rename_i s₁ run
      cases step
      exact reply_standing_other sane run other
    · cases step

/-- A run of replies is a run of the searches. It fails no assert if it goes through. -/
theorem exec_handleReplies {s₀ : Node} {ms : List MessageProto} {out : Except Fault Unit}
    (sane : s.Sane) (run : Act.exec (handleReplies w ms) s = (out, s')) :
    (out = .ok () ∧ (searches w s₀).run ms s = some s') ∨
      (out = .error .assertion ∧ (searches w s₀).run ms s = none) := by
  induction ms generalizing s with
  | nil =>
    cases run
    exact .inl ⟨rfl, rfl⟩
  | cons m ms ih =>
    have outcome := reply_outcome (w := w) (m := m) sane
    rw [Apart.run_cons]
    cases first : Act.exec (handleReplyFindNode w m) s with
    | mk o s₁ =>
      cases o with
      | ok u =>
        have step : (searches w s₀).step m s = some s₁ := by
          simp [searches, first]
        rw [handleReplies, Act.exec_bind_ok first] at run
        rw [step]
        exact ih (reply_sane sane first) run
      | error e =>
        have step : (searches w s₀).step m s = none := by
          simp [searches, first]
        rw [handleReplies, Act.exec_bind_error first] at run
        cases run
        rw [step]
        rw [first] at outcome
        refine .inr ⟨?_, rfl⟩
        split at outcome
        · cases outcome
        · exact outcome

/-- The contacts of a reply have endpoints and ids other than zero, and so has the key it
is run for. -/
def Proper (m : MessageProto) : Prop :=
  Search.AllNamed m.contactList ∧ zeroId ∉ Search.keys m.contactList ∧ m.toId ≠ zeroId

/-- No search of the node has a contact under the zero id on its short list. -/
def NoZero (s : Node) : Prop :=
  ∀ t q, s.mapSearch t = some q → zeroId ∉ Search.keys q.shortList

/-- A proper reply to a search without contacts under the zero id goes through, and leaves
it so. -/
theorem next_proper {v : Standing} (proper : Proper m)
    (clear : ∀ q, v.search = some q → zeroId ∉ Search.keys q.shortList) :
    ∃ v', v.next w s m = some v' ∧ ∀ q, v'.search = some q → zeroId ∉ Search.keys q.shortList := by
  obtain ⟨offered, nonzero, keyed⟩ := proper
  unfold Standing.next
  cases here : v.search with
  | none => exact ⟨v, rfl, clear⟩
  | some q =>
    have short := clear q here
    have order : InOrder q m := ⟨offered, nonzero, roundSafe_of_nonzero short nonzero fun _ => keyed⟩
    simp only [if_pos order]
    refine ⟨_, rfl, fun q' there => ?_⟩
    by_cases ended : q.ends m.contactList = true
    · simp [ended] at there
    · simp only [ended, Bool.false_eq_true, if_false, Option.some_inj] at there
      subst there
      intro zero
      obtain ⟨c, member, key⟩ := List.mem_map.mp zero
      rcases @Search.mem_offer q m.contactList _ member with old | new
      · exact short (key ▸ List.mem_map_of_mem old)
      · exact nonzero (key ▸ List.mem_map_of_mem new)

/-- Proper replies go through, whatever their order, if no contact is under the zero id. -/
theorem searches_go_through {ms : List MessageProto} (sane : s.Sane)
    (proper : ∀ m ∈ ms, Proper m) (clear : NoZero s) : ((searches w s).run ms s).isSome := by
  have inv : (searches w s).inv s := ⟨sane, rfl, rfl⟩
  rw [Apart.run_isSome_iff inv]
  intro t
  apply Apart.course_isSome (P := fun v => ∀ q, v.search = some q → zeroId ∉ Search.keys q.shortList)
  · exact clear t
  · intro m mail v short
    exact next_proper (proper m (List.mem_filter.mp mail).1) short

/-- A search for a value that starts without contacts asks nobody, and stays. -/
theorem exec_iterativeFindValue_alone (sane : s.Sane) (nobody : s.contactList.entries = [])
    (k : String) (c : Nat) (hint : String) :
    ∃ s' q, Act.exec (iterativeFindValue w k c hint) s = (.ok (), s') ∧
      s'.mapSearch = Function.update s.mapSearch (tokenAt w s.draws) (some q) ∧
      q.shortList = [] ∧ s'.id = s.id ∧ s'.draws = s.draws + tokenSize ∧
      s'.contactList.entries = [] := by
  let q : Search := { Search.new s.id k .value with valueCallback := some c, hint := hint }
  have ready : q.Ready := value_ready s.id k hint c
  have empty : s.contactList.proximity k = [] := Bucket.proximity_nil nobody k
  have offered : Search.AllNamed (s.contactList.proximity k) :=
    Bucket.proximity_named sane.named k
  have picks : q.picks [] = [] := by
    simp [Search.picks, Search.ends_value, Search.unasked, Search.free, q, Search.new]
  have safe : RoundSafe q (s.contactList.proximity k) k := by
    rw [empty]
    refine ⟨?_, ?_⟩
    · simp [picks, Search.keys]
    · simp [q, Search.new]
  have begun := (sane.searching (w := w) ready).proximate k
  have run := (exec_newSearch_start (w := w) (k := k) sane .value
    (fun search => { search with valueCallback := some c, hint := hint }) ready).trans
      (exec_replyIterative withSearch_at ready offered begun.named safe)
  refine ⟨_, q.next [], Act.exec_rethrowAs_ok.mpr run, ?_, ?_, ?_, ?_, ?_⟩
  · rw [logged_mapSearch, afterRound_mapSearch, empty, Search.ends_value rfl]
    simp [q, searching, proximate, withSearch]
  · simp [Search.next, Search.asks, q, Search.new]
  · rw [logged_id, afterRound_id]
    rfl
  · rfl
  · rw [logged_contactList, afterRound_contactList]
    exact (Bucket.buildProximity_entries _ _).trans nobody

/-- **Searches do not interfere.** Two runs of the same replies, in which those for every
search come in the same order, end in the same way, and leave the same standing under
every token. With proper replies and no contact under the zero id they go through. -/
theorem searches_independent {ms ms' : List MessageProto} {s₁ s₂ : Node}
    {out out' : Except Fault Unit} (reach : Reachable w s)
    (same : ∀ t, (ms.filter fun m => m.token = t) = ms'.filter fun m => m.token = t)
    (run : Act.exec (handleReplies w ms) s = (out, s₁))
    (run' : Act.exec (handleReplies w ms') s = (out', s₂)) :
    out = out' ∧ (out = .ok () → ∀ t, s₁.standing t = s₂.standing t) ∧
      ((∀ m ∈ ms, Proper m) → NoZero s → out = .ok ()) := by
  have sane := reach.sane
  have mixed := @Apart.run_mixed _ _ _ _ (searches w s) _ ms ms' s ⟨sane, rfl, rfl⟩ same
  rcases @exec_handleReplies w s _ s _ _ sane run with ⟨rfl, ran⟩ | ⟨rfl, stuck⟩
  · rcases @exec_handleReplies w s _ s _ _ sane run' with ⟨rfl, ran'⟩ | ⟨rfl, stuck'⟩
    · rw [ran, ran', Option.map_some, Option.map_some, Option.some_inj] at mixed
      exact ⟨rfl, fun _ t => congrFun mixed t, fun _ _ => rfl⟩
    · rw [ran, stuck'] at mixed
      cases mixed
  · rcases @exec_handleReplies w s _ s _ _ sane run' with ⟨rfl, ran'⟩ | ⟨rfl, -⟩
    · rw [stuck, ran'] at mixed
      cases mixed
    · refine ⟨rfl, fun returned => ?_, fun proper clear => ?_⟩
      · cases returned
      · have through := searches_go_through (w := w) sane proper clear
        rw [stuck] at through
        cases through

/-- The reply of a node that knows the first peer only. -/
def replyKnowing (s : Node) (t : Token) : MessageProto :=
  { type := .replyFindNode, toId := s.id, token := t, contactList := [peerA] }

/-- Two searches for values are answered, in either order. -/
theorem searches_independent_two :
    ∃ s t t', Reachable .drawing s ∧ t ≠ t' ∧ (s.mapSearch t).isSome ∧ (s.mapSearch t').isSome ∧
      ∃ s₁ s₂,
        Act.exec (handleReplies .drawing [s.replyKnowing t, s.replyKnowing t']) s = (.ok (), s₁) ∧
        Act.exec (handleReplies .drawing [s.replyKnowing t', s.replyKnowing t]) s = (.ok (), s₂) ∧
        ∀ t, s₁.standing t = s₂.standing t := by
  have start := Reachable.start (w := .drawing)
    (exec_restoreFromBackup_empty Sqlite.inOrder_sound 1 0 {})
  obtain ⟨s₁, q₁, run₁, map₁, short₁, id₁, draws₁, nobody₁⟩ :=
    exec_iterativeFindValue_alone start.sane rfl "0c" 0 ""
  have reach₁ : Reachable .drawing s₁ :=
    @Reachable.step _ _ _ (.iterativeFindValue "0c" 0 "") _ start run₁ trivial
  obtain ⟨s, q₂, run₂, map₂, short₂, id₂, -, -⟩ :=
    exec_iterativeFindValue_alone reach₁.sane nobody₁ "0d" 0 ""
  have reach : Reachable .drawing s :=
    @Reachable.step _ _ _ (.iterativeFindValue "0d" 0 "") _ reach₁ run₂ trivial
  have own : s.id = keyToString 1 := id₂.trans id₁
  let t := tokenAt .drawing 1
  let t' := tokenAt .drawing (1 + tokenSize)
  have map : s.mapSearch = Function.update (Function.update (fun _ => none) t (some q₁)) t' (some q₂) := by
    rw [map₂, draws₁, map₁]
    rfl
  have apart : t ≠ t' := by decide +kernel
  have clear : NoZero s := by
    intro t₀ q there
    rw [map] at there
    by_cases second : t₀ = t'
    · rw [second, Function.update_self, Option.some_inj] at there
      rw [← there, short₂]
      exact List.not_mem_nil
    · by_cases first : t₀ = t
      · rw [Function.update_of_ne second, first, Function.update_self, Option.some_inj] at there
        rw [← there, short₁]
        exact List.not_mem_nil
      · rw [Function.update_of_ne second, Function.update_of_ne first] at there
        cases there
  have each (t₀ : Token) : Proper (s.replyKnowing t₀) := by
    have named : Search.AllNamed [peerA] := by decide
    have known : zeroId ∉ Search.keys [peerA] := by decide +kernel
    have nonzero : keyToString 1 ≠ zeroId := by decide +kernel
    exact ⟨named, known, by rw [replyKnowing, own]; exact nonzero⟩
  have proper : ∀ m ∈ [s.replyKnowing t, s.replyKnowing t'], Proper m := by
    intro m member
    rcases List.mem_pair.mp member with rfl | rfl
    · exact each t
    · exact each t'
  have same : ∀ t₀, ([s.replyKnowing t, s.replyKnowing t'].filter fun m => m.token = t₀) =
      [s.replyKnowing t', s.replyKnowing t].filter fun m => m.token = t₀ := by
    intro t₀
    by_cases first : t = t₀
    · have second : t' ≠ t₀ := fun hit => apart (first.trans hit.symm)
      simp [replyKnowing, first, second]
    · by_cases second : t' = t₀ <;> simp [replyKnowing, first, second]
  obtain ⟨alike, agree, through⟩ := searches_independent (w := .drawing) reach same rfl rfl
  have returned := through proper clear
  refine ⟨s, t, t', reach, apart, ?_, ?_, _, _, Prod.ext returned rfl,
    Prod.ext (alike.symm.trans returned) rfl, agree returned⟩
  · rw [map, Function.update_of_ne apart, Function.update_self]
    rfl
  · rw [map, Function.update_self]
    rfl

end Node

end MiniDht
