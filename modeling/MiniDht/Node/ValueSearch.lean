import MiniDht.Node.Turns

/-!
# Searches for values

`replyIterativeValueSearch` does not look at what `update_list` answers and has no branch
that erases the search, so a search for a value that nobody has stays in the map for good.
It asks without a hint, whatever hint the client gave: `send_FIND_VALUE` has a default for
it, and the one in the search is not passed on.
-/

namespace MiniDht

open Lib

namespace Node

variable {w : World} {t : Token} {s₀ s s' : Node} {turns : List Turn} {sent : List MessageProto}
  {q : Search} {k hint : String} {c : Nat}

/-- A search for a value that has not been offered a contact yet. -/
structure Blank (q : Search) : Prop where
  value : q.searchType = .value
  list : q.shortList = []
  busy : q.mapNodeBusy = ∅

/-- It asks as soon as it is offered one. -/
theorem Blank.picks_nil_iff (blank : Blank q) {lc : List ContactProto} :
    q.picks lc = [] ↔ lc = [] := by
  have asks : q.picks lc = (q.offer lc).unasked.take alpha := by
    rw [Search.picks, Search.ends_value blank.value, if_neg Bool.false_ne_true]
  have all : (q.offer lc).unasked = (q.offer lc).shortList := by
    simp [Search.unasked, Search.free, blank.busy]
  rw [asks, all]
  constructor
  · intro nobody
    have empty : (q.offer lc).shortList = [] := by simpa [alpha] using nobody
    have start : Closest bucketSize (distTo (stringToKey q.destination)) ∅ q.ids := by
      rw [Search.ids, blank.list]
      exact .nil _ _
    have closest := q.offer_closest start lc
    have length := closest.length
    rw [Search.ids, empty, Finset.empty_union, List.map_nil, List.length_nil] at length
    by_contra some
    obtain ⟨c, rest, rfl⟩ := List.exists_cons_of_ne_nil some
    have member : nodeId c ∈ idSet (c :: rest) := mem_idSet.mpr ⟨c, List.mem_cons_self, rfl⟩
    have card := Finset.card_pos.mpr ⟨_, member⟩
    unfold bucketSize at length
    omega
  · rintro rfl
    simp [blank.list]

/-- Offered nothing it stays as it is. -/
theorem Blank.next_nil (blank : Blank q) : q.next [] = q := by
  rw [Search.next, blank.picks_nil_iff.mpr rfl, Search.offer_nil, Search.asks_nil]

/-- A client's call begins a search for a value. -/
theorem findValue_begun {out : Except Fault Unit} (sane : s₀.Sane)
    (run : Act.exec (iterativeFindValue w k c hint) s₀ = (out, s)) (survives : Survives out) :
    ∃ q : Search, Blank q ∧ s.Sane ∧
      s.mapSearch (tokenAt w s₀.draws) = some (q.next (s₀.contactList.proximity k)) ∧
      searchRequests (tokenAt w s₀.draws) (s₀.since s) =
        (Search.keys (q.picks (s₀.contactList.proximity k))).map
          (roundMessage q (s₀.contactList.proximity k) s₀.id k (tokenAt w s₀.draws)) := by
  have kept := sane.input (.iterativeFindValue k c hint) run survives
  obtain ⟨out', begun, alive⟩ := Act.exec_of_rethrowAs run survives
  obtain ⟨-, here, made⟩ := searchRequests_begun sane rfl (value_ready s₀.id k hint c) begun alive
  rw [Search.ends_value rfl, if_neg Bool.false_ne_true] at here
  exact ⟨_, ⟨rfl, rfl, rfl⟩, kept, here, made⟩

/-! ## Retiring a search -/

/-- Every contact on the short list has been handed out. -/
def Exhausted (s : Node) (t : Token) : Prop :=
  ∀ q, s.mapSearch t = some q → ∀ c ∈ q.shortList, c.key ∈ q.mapNodeBusy

/-- Every request has been answered by a reply from whom it went to. -/
def AllAnswered (requests : List MessageProto) (turns : List Turn) : Prop :=
  ∀ r ∈ requests, ∃ found m, Turn.reply found m ∈ turns ∧ m.fromId = r.toId

/-- A search that is exhausted and has its answers is no longer in the map. -/
def Retires (t : Token) (requests : List MessageProto) (turns : List Turn) (s : Node) : Prop :=
  Exhausted s t → AllAnswered requests turns → s.mapSearch t = none

/-- **Value searches are not retired.** After any replies with contacts, a search for a value
is in the map, whether or not there is anybody left to ask or to answer. -/
theorem value_never_retired {out : Except Fault Unit} (reach : Reachable w s₀)
    (run : Act.exec (iterativeFindValue w k c hint) s₀ = (out, s)) (survives : Survives out)
    (follows : Follows w (tokenAt w s₀.draws) s turns sent s') (only : .erased ∉ turns) :
    (∃ q, s'.mapSearch (tokenAt w s₀.draws) = some q ∧ q.searchType = .value) ∧
      (Retires (tokenAt w s₀.draws)
          (searchRequests (tokenAt w s₀.draws) (s₀.since s) ++ sent) turns s' ↔
        ¬ (Exhausted s' (tokenAt w s₀.draws) ∧ AllAnswered
          (searchRequests (tokenAt w s₀.draws) (s₀.since s) ++ sent) turns)) := by
  obtain ⟨q, ⟨value, -, -⟩, sane, here, -⟩ := findValue_begun reach.sane run survives
  obtain ⟨q', there, still⟩ := follows.stays sane
    (J := fun q => q.searchType = .value)
    (fun q lc value => ⟨Search.ends_value value lc, by rwa [Search.next_searchType]⟩) only
    ⟨_, here, by rwa [Search.next_searchType]⟩
  refine ⟨⟨q', there, still⟩, fun retires both => ?_, fun open' exhausted answered => ?_⟩
  · have gone := retires both.1 both.2
    rw [there] at gone
    cases gone
  · exact absurd ⟨exhausted, answered⟩ open'

/-! ### A search for a value answered once -/

/-- A node that knows one peer has begun to search for a value, and asked the peer. -/
structure AskedValue (w : World) (s₀ s : Node) (q : Search) (k : String) (c : Nat) (hint : String)
    (a : ContactProto) : Prop where
  reach₀ : Reachable w s₀
  run : Act.exec (iterativeFindValue w k c hint) s₀ = (.ok (), s)
  sane : s.Sane
  here : s.mapSearch (tokenAt w s₀.draws) = some q
  value : q.searchType = .value
  list : q.shortList = [a]
  busy : q.mapNodeBusy = {a.key}
  asked : searchRequests (tokenAt w s₀.draws) (s₀.since s) =
    [findValueMessage s₀.id a.key k (tokenAt w s₀.draws) ""]

theorem askedValue_simple (hint : String) :
    ∃ s₀ s q, AskedValue .pinged s₀ s q "0c" 0 hint peerA := by
  let ep : Endpoint := { address := "10.0.0.1", port := 1, printed := by decide }
  have proto : ep.proto = peerA.ep := by decide +kernel
  obtain ⟨s₀, reach, own, -, -, c, contact, at', alone, fresh⟩ := reachable_met
    (w := .pinged) Sqlite.inOrder_sound 1 0 {} ep [0] rfl rfl (by decide +kernel) (by decide +kernel)
  have peer : ({ key := c.key, ep := c.ep } : ContactProto) = peerA := by
    rw [contact, at', proto]
    rfl
  have nonzero : c.key ≠ zeroId := by
    rw [contact]
    decide +kernel
  let fill : Search → Search := fun search =>
    { search with valueCallback := some 0, hint := hint }
  have ready : (fill (Search.new s₀.id "0c" .value)).Ready := value_ready s₀.id "0c" hint 0
  obtain ⟨s, begun, -⟩ := exec_newSearch_met (w := .pinged) (k := "0c") .value fill reach.sane
    nonzero alone fresh rfl ready rfl rfl (by simp [fill, Search.new])
  have run : Act.exec (iterativeFindValue .pinged "0c" 0 hint) s₀ = (.ok (), s) :=
    Act.exec_rethrowAs_ok.mpr begun
  obtain ⟨-, picks, list, busy⟩ := Search.next_first (c := peerA) ready rfl rfl
  have only : s₀.contactList.proximity "0c" = [peerA] := by
    rw [Bucket.proximity_one alone fresh, peer]
  obtain ⟨-, here, asked⟩ := searchRequests_begun reach.sane rfl ready begun trivial
  rw [Search.ends_value rfl, if_neg Bool.false_ne_true, only] at here
  rw [only, picks] at asked
  have kept := reach.sane.input (.iterativeFindValue "0c" 0 hint) run trivial
  exact ⟨s₀, s, _, reach, run, kept, here, rfl, list, busy, asked⟩

/-- The peer answers that it knows nobody. -/
theorem AskedValue.answered {a : ContactProto} (asked : AskedValue w s₀ s q k c hint a) :
    ∃ s' m, m.fromId = a.key ∧ m.contactList = [] ∧
      s'.mapSearch (tokenAt w s₀.draws) = some q ∧
      Follows w (tokenAt w s₀.draws) s [.reply (some q) m] [] s' := by
  let m : MessageProto :=
    { type := .replyFindNode, fromId := a.key, token := tokenAt w s₀.draws, toId := s.id }
  have here : s.mapSearch m.token = some q := asked.here
  have nobody : q.picks [] = [] := by
    rw [Search.picks, Search.ends_value asked.value, if_neg Bool.false_ne_true, Search.offer_nil,
      Search.unasked, Search.free_nil_iff.mpr (by simp [asked.list, asked.busy]), List.take_nil]
  obtain ⟨s', run, -⟩ := reply_returns (w := w) (m := m) asked.sane here (by simp [m, Search.AllNamed])
    (by simp [m, Search.keys]) ⟨by simp [m, nobody, Search.keys], fun store => by
      rw [asked.value] at store
      cases store⟩
  have left := reply_search asked.sane here run
  have silent := searchRequests_handled asked.sane here run
  rw [Search.ends_value asked.value, if_neg Bool.false_ne_true, Search.next] at left
  have turn : Follows w m.token s [.reply (s.mapSearch m.token) m]
      (searchRequests m.token (s.since s') ++ []) s' := .reply rfl run .done
  rw [here, silent] at turn
  simp only [m, nobody, Search.offer_nil, Search.asks_nil, Search.keys, List.map_nil,
    List.append_nil] at left turn
  exact ⟨s', m, rfl, rfl, left, turn⟩

/-- The theorem at a search whose one contact has answered. -/
theorem value_never_retired_asked :
    ∃ (s₀ s s' : Node) (turns : List Turn) (sent : List MessageProto),
      Follows .pinged (tokenAt .pinged s₀.draws) s turns sent s' ∧ turns.length = 1 ∧
        (∃ q, s'.mapSearch (tokenAt .pinged s₀.draws) = some q ∧ q.searchType = .value) ∧
        (Retires (tokenAt .pinged s₀.draws)
            (searchRequests (tokenAt .pinged s₀.draws) (s₀.since s) ++ sent) turns s' ↔
          ¬ (Exhausted s' (tokenAt .pinged s₀.draws) ∧ AllAnswered
            (searchRequests (tokenAt .pinged s₀.draws) (s₀.since s) ++ sent) turns)) := by
  obtain ⟨s₀, s, q, asked⟩ := askedValue_simple ""
  obtain ⟨s', m, -, -, -, follows⟩ := asked.answered
  exact ⟨s₀, s, s', _, _, follows, rfl,
    value_never_retired asked.reach₀ asked.run trivial follows (by simp)⟩

/-- The only contact of the search has been asked and has answered, and the search stays. -/
theorem value_exhausted_kept :
    ∃ (s₀ s s' : Node) (turns : List Turn) (sent : List MessageProto), Reachable .pinged s₀ ∧
      Act.exec (iterativeFindValue .pinged "0c" 0 "") s₀ = (.ok (), s) ∧
      Follows .pinged (tokenAt .pinged s₀.draws) s turns sent s' ∧ .erased ∉ turns ∧
      Exhausted s' (tokenAt .pinged s₀.draws) ∧
      AllAnswered (searchRequests (tokenAt .pinged s₀.draws) (s₀.since s) ++ sent) turns ∧
      ¬ Retires (tokenAt .pinged s₀.draws)
        (searchRequests (tokenAt .pinged s₀.draws) (s₀.since s) ++ sent) turns s' := by
  obtain ⟨s₀, s, q, asked⟩ := askedValue_simple ""
  obtain ⟨s', m, sender, -, there, follows⟩ := asked.answered
  have exhausted : Exhausted s' (tokenAt .pinged s₀.draws) := by
    intro q' here c member
    obtain rfl : q = q' := Option.some.inj (there.symm.trans here)
    rw [asked.list, List.mem_singleton] at member
    simp [asked.busy, member]
  have answered : AllAnswered
      (searchRequests (tokenAt .pinged s₀.draws) (s₀.since s) ++ []) [.reply (some q) m] := by
    intro r member
    rw [asked.asked, List.append_nil, List.mem_singleton] at member
    exact ⟨some q, m, List.mem_cons_self, by rw [sender, member, findValueMessage]⟩
  refine ⟨s₀, s, s', _, _, asked.reach₀, asked.run, follows, by simp, exhausted, answered, ?_⟩
  intro retires
  have gone := retires exhausted answered
  rw [there] at gone
  cases gone

/-! ## The hint -/

/-- What a search for a value sends asks for a value, without a hint. -/
theorem OfRound.hintless {m : MessageProto} (round : OfRound t (fun q => q.searchType = .value) m) :
    m.type = .sendFindValue ∧ m.hint = "" := by
  obtain ⟨q, lc, id, k, key, value, rfl⟩ := round
  simp [roundMessage, value, findValueMessage]

/-- A reply without contacts leaves such a search as it was, and any other makes it ask. -/
theorem Blank.replied {m : MessageProto} (blank : Blank q) (sane : s.Sane)
    (here : s.mapSearch m.token = some q)
    (run : Act.exec (handleReplyFindNode w m) s = (.ok (), s')) :
    (searchRequests m.token (s.since s') = [] ↔ m.contactList = []) ∧
      (m.contactList = [] → s'.mapSearch m.token = some q) := by
  constructor
  · rw [searchRequests_handled sane here run, List.map_eq_nil_iff, Search.keys, List.map_eq_nil_iff,
      blank.picks_nil_iff]
  · intro nobody
    rw [reply_search sane here run, Search.ends_value blank.value, if_neg Bool.false_ne_true, nobody,
      blank.next_nil]

/-- A search that was not offered a contact yet sends nothing as long as the replies that
find it carry none. -/
theorem Follows.quiet_iff (follows : Follows w t s turns sent s') (sane : s.Sane)
    (start : ∀ q, s.mapSearch t = some q → Blank q) :
    sent = [] ↔ ∀ q m, .reply (some q) m ∈ turns → m.contactList = [] := by
  induction follows with
  | done => simp
  | @reply s s₁ s' m turns sent token run rest ih =>
    subst token
    cases here : s.mapSearch m.token with
    | none =>
      obtain ⟨rfl, none⟩ := searchRequests_unknown here run
      rw [none, List.nil_append, ih sane start]
      simp
    | some q =>
      obtain ⟨asks, kept⟩ := (start q here).replied sane here run
      have later (nobody : m.contactList = []) :=
        ih (reply_sane sane run) fun q' there => by
          rw [kept nobody, Option.some.injEq] at there
          exact there ▸ start q here
      rw [List.append_eq_nil_iff, asks]
      constructor
      · rintro ⟨nobody, quiet⟩ q' m' member
        rcases List.mem_cons.mp member with same | after
        · cases same
          exact nobody
        · exact (later nobody).mp quiet q' m' after
      · intro quiet
        have nobody := quiet q m List.mem_cons_self
        refine ⟨nobody, (later nobody).mpr fun q' m' after => quiet q' m' ?_⟩
        exact List.mem_cons_of_mem _ after
  | other kept same _ ih => exact ih kept fun q here => start q (same ▸ here)
  | erase kept gone _ ih =>
    rw [ih kept fun q here => by rw [gone] at here; cases here]
    simp

section Asked

variable {out : Except Fault Unit} (reach : Reachable w s₀)
  (run : Act.exec (iterativeFindValue w k c hint) s₀ = (out, s)) (survives : Survives out)
  (follows : Follows w (tokenAt w s₀.draws) s turns sent s')
include reach run survives follows

/-- Every request of a client's search is one for a value, without a hint. -/
theorem findValue_hintless :
    ∀ m ∈ searchRequests (tokenAt w s₀.draws) (s₀.since s) ++ sent,
      m.type = .sendFindValue ∧ m.hint = "" := by
  obtain ⟨q, blank, sane, here, first⟩ := findValue_begun reach.sane run survives
  obtain ⟨-, -, later⟩ := follows.sound sane (J := fun q => q.searchType = .value)
    (fun q lc value _ => by rwa [Search.next_searchType]) fun q' there => by
      rw [here, Option.some.injEq] at there
      rw [← there, Search.next_searchType]
      exact blank.value
  rw [first]
  intro m member
  rcases List.mem_append.mp member with early | late
  · exact (OfRound.map (t := tokenAt w s₀.draws) (J := fun q => q.searchType = .value)
      blank.value _ _ _ _ m early).hintless
  · exact (later m late).hintless

/-- There are none if and only if the node has no contact, and no reply that finds the search
carries one. -/
theorem findValue_silent_iff :
    searchRequests (tokenAt w s₀.draws) (s₀.since s) ++ sent = [] ↔
      s₀.contactList.proximity k = [] ∧
        ∀ q m, .reply (some q) m ∈ turns → m.contactList = [] := by
  obtain ⟨q, blank, sane, here, first⟩ := findValue_begun reach.sane run survives
  have nobody : searchRequests (tokenAt w s₀.draws) (s₀.since s) = [] ↔
      s₀.contactList.proximity k = [] := by
    rw [first, List.map_eq_nil_iff, Search.keys, List.map_eq_nil_iff, blank.picks_nil_iff]
  rw [List.append_eq_nil_iff, nobody]
  refine and_congr_right fun alone => follows.quiet_iff sane ?_
  rw [here, alone, blank.next_nil]
  rintro q' ⟨⟩
  exact blank

end Asked

/-- **The hint of a search for a value.** Over any replies, the requests of a search for a
value carry the hint the client gave if and only if it gave none, or nobody is ever asked:
the node has no contact, and no reply that finds the search carries one. -/
theorem hint_sent_iff {out : Except Fault Unit} (reach : Reachable w s₀)
    (run : Act.exec (iterativeFindValue w k c hint) s₀ = (out, s)) (survives : Survives out)
    (follows : Follows w (tokenAt w s₀.draws) s turns sent s') :
    (∀ m ∈ searchRequests (tokenAt w s₀.draws) (s₀.since s) ++ sent,
        m.type = .sendFindValue → m.hint = hint) ↔
      hint = "" ∨ (s₀.contactList.proximity k = [] ∧
        ∀ q m, .reply (some q) m ∈ turns → m.contactList = []) := by
  have hintless := findValue_hintless reach run survives follows
  rw [← findValue_silent_iff reach run survives follows]
  constructor
  · intro all
    by_cases quiet : searchRequests (tokenAt w s₀.draws) (s₀.since s) ++ sent = []
    · exact .inr quiet
    · obtain ⟨m, member⟩ := List.exists_mem_of_ne_nil _ quiet
      obtain ⟨type, none⟩ := hintless m member
      exact .inl ((all m member type).symm.trans none)
  · rintro (none | quiet) m member -
    · exact (hintless m member).2.trans none.symm
    · rw [quiet] at member
      cases member

/-- The theorem at a search for values of the kind `"h"` that one peer has answered. -/
theorem hint_sent_iff_asked :
    ∃ (s₀ s s' : Node) (turns : List Turn) (sent : List MessageProto),
      Follows .pinged (tokenAt .pinged s₀.draws) s turns sent s' ∧ turns.length = 1 ∧
        ((∀ m ∈ searchRequests (tokenAt .pinged s₀.draws) (s₀.since s) ++ sent,
            m.type = .sendFindValue → m.hint = "h") ↔
          "h" = "" ∨ (s₀.contactList.proximity "0c" = [] ∧
            ∀ q m, .reply (some q) m ∈ turns → m.contactList = [])) := by
  obtain ⟨s₀, s, q, asked⟩ := askedValue_simple "h"
  obtain ⟨s', m, -, -, -, follows⟩ := asked.answered
  exact ⟨s₀, s, s', _, _, follows, rfl, hint_sent_iff asked.reach₀ asked.run trivial follows⟩

/-- A client asks for values of the kind `"h"`, and its one contact is asked for any. -/
theorem hint_lost :
    ∃ (s₀ s : Node) (m : MessageProto), Reachable .pinged s₀ ∧
      Act.exec (iterativeFindValue .pinged "0c" 0 "h") s₀ = (.ok (), s) ∧
      m ∈ searchRequests (tokenAt .pinged s₀.draws) (s₀.since s) ∧ m.type = .sendFindValue ∧
      m.hint ≠ "h" := by
  obtain ⟨s₀, s, q, asked⟩ := askedValue_simple "h"
  refine ⟨s₀, s, findValueMessage s₀.id peerA.key "0c" (tokenAt .pinged s₀.draws) "", asked.reach₀,
    asked.run, ?_, rfl, ?_⟩
  · rw [asked.asked]
    exact List.mem_cons_self
  · simp [findValueMessage]

end Node

end MiniDht
