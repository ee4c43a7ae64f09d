import MiniDht.Node.Meeting

/-!
# Where requests go

A search keeps the endpoints of the contacts it hears of, but `send_MESSAGE(m)` looks the
recipient up in the contact list. A request reaches the endpoint on the short list exactly
if the contact list has the same one.
-/

namespace MiniDht

open Lib

namespace Node

variable {w : World} {s : Node} {t : Token} {q : Search} {lc : List ContactProto} {k : String}

/-- What a round hands over on behalf of a contact it takes. -/
theorem handed_mem_roundEvents {c : ContactProto} (member : c ∈ taken q lc k)
    (other : c.key ≠ s.id) :
    .handed (roundMessage q lc s.id k t c.key) c.ep ∈ roundEvents w s q lc t k ↔
      ∃ e, s.contactList.lookup c.key = some e ∧ e.ep = c.ep := by
  rw [mem_roundEvents]
  constructor
  · rintro ⟨d, -, handed⟩
    obtain ⟨same, -, e, found, at'⟩ := handed_mem_sendEvents.mp handed
    rw [← same, roundMessage_toId] at found
    exact ⟨e, found, at'⟩
  · rintro ⟨e, found, at'⟩
    refine ⟨c, member, handed_mem_sendEvents.mpr ⟨rfl, ?_, e, ?_, at'⟩⟩
    · simpa using other
    · simpa using found

/-- **Where requests go.** A round makes a request to every contact it takes, and to no one
else. The request to a contact other than the node itself is handed over with the endpoint
on the short list if and only if the contact list has that endpoint for that key. -/
theorem requests_routed_iff (sane : s.Sane) (here : s.mapSearch t = some q)
    (offered : Search.AllNamed lc) :
    requests (s.since (Act.exec (replyIterative w lc t k) s).2) =
        (taken q lc k).map (fun c => roundMessage q lc s.id k t c.key) ∧
      ∀ c ∈ taken q lc k, c ∈ (q.offer lc).shortList ∧
        (c.key ≠ s.id →
          (.handed (roundMessage q lc s.id k t c.key) c.ep ∈
              s.since (Act.exec (replyIterative w lc t k) s).2 ↔
            ∃ e, s.contactList.lookup c.key = some e ∧ e.ep = c.ep)) := by
  obtain ⟨s', run, log, -⟩ := exec_round (w := w) (k := k) here (sane.ready t q here) offered
    sane.named
  have seen : s.since (Act.exec (replyIterative w lc t k) s).2 = roundEvents w s q lc t k := by
    rw [run]
    exact since_of_log (by rw [logged_log, log])
  rw [seen]
  refine ⟨?_, fun c member => ⟨Search.picks_subset (taken_subset member).1, fun other => ?_⟩⟩
  · rw [requests_roundEvents, Search.keys, List.map_map]
    rfl
  · exact handed_mem_roundEvents member other

/-- The one contact there is, offered to a search for the first time. -/
theorem requests_routed_iff_first :
    ∃ (t : Token) (q : Search) (s : Node), s.mapSearch t = some q ∧ peerA ∈ taken q [peerA] "0c" ∧
      .handed (roundMessage q [peerA] s.id "0c" t peerA.key) peerA.ep ∈
        s.since (Act.exec (replyIterative .pinged [peerA] t "0c") s).2 := by
  obtain ⟨_, s₀, _, own, asked⟩ := askedOne_simple
  let q : Search := { Search.new s₀.id "0c" .node with nodeCallbackValid := false }
  have ready : q.Ready := node_ready s₀.id "0c"
  have sane : (s₀.withSearch 0 q).Sane := asked.reach.sane.withSearch ready
  obtain ⟨-, picks, -, -⟩ := Search.next_first (c := peerA) ready rfl rfl
  have member : peerA ∈ taken q [peerA] "0c" := by
    have safe : RoundSafe q [peerA] "0c" :=
      roundSafe_of_nonzero (List.not_mem_nil : zeroId ∉ []) (by decide +kernel) nofun
    rw [taken_safe safe, picks]
    exact List.mem_singleton_self peerA
  have other : peerA.key ≠ (s₀.withSearch 0 q).id := by
    rw [withSearch_id, own]
    decide +kernel
  obtain ⟨-, routed⟩ := requests_routed_iff (w := .pinged) (k := "0c") sane withSearch_at
    (by decide : Search.AllNamed [peerA])
  exact ⟨0, q, s₀.withSearch 0 q, withSearch_at, member, ((routed peerA member).2 other).mpr asked.known⟩

/-- A contact known only from a reply is asked, and the request goes nowhere. -/
theorem request_unrouted :
    ∃ (t : Token) (q : Search) (s s' : Node), Reachable .pinged s ∧ s.mapSearch t = some q ∧
      Act.exec (handleReplyFindNode .pinged
        { type := .replyFindNode, fromId := peerA.key, token := t, toId := s.id,
          contactList := [peerB] })
          s = (.ok (), s') ∧
      peerB.key ≠ s.id ∧ .request (findNodeMessage s.id peerB.key s.id t) ∈ s.since s' ∧
      ∀ epp, .handed (findNodeMessage s.id peerB.key s.id t) epp ∉ s.since s' := by
  obtain ⟨s₀, s, q, own, asked⟩ := askedOne_simple
  obtain ⟨reach, here⟩ : Reachable .pinged s ∧ _ := ⟨asked.reach, asked.here⟩
  generalize tokenAt _ s₀.draws = t at here
  have apart : nodeId peerA ≠ nodeId peerB := by decide +kernel
  obtain ⟨goes, picked⟩ := Search.ends_other (reach.sane.ready t q here) asked.list asked.busy apart
  have short : zeroId ∉ Search.keys q.shortList := by
    rw [asked.list]
    decide +kernel
  have own' : s.id ≠ zeroId := by
    rw [own]
    decide +kernel
  have offered : zeroId ∉ Search.keys [peerB] := by decide +kernel
  have safe : RoundSafe q [peerB] s.id := roundSafe_of_nonzero short offered fun _ => own'
  let m : MessageProto :=
    { type := .replyFindNode, fromId := peerA.key, token := t, toId := s.id, contactList := [peerB] }
  have named : Search.AllNamed [peerB] := by decide
  obtain ⟨s', run, -⟩ := reply_returns (w := .pinged) (m := m) reach.sane here named offered safe
  obtain ⟨es, pings, log⟩ := reply_log (m := m) reach.sane here run
  have seen := since_of_log log
  have asks : roundMessage q [peerB] s.id s.id t peerB.key = findNodeMessage s.id peerB.key s.id t := by
    simp [roundMessage, asked.store, goes]
  refine ⟨t, q, s, s', reach, here, run, ?_, ?_, ?_⟩
  · rw [own]
    decide +kernel
  · rw [seen, ← asks]
    refine List.mem_append_right _ (mem_roundEvents.mpr ⟨peerB, ?_, List.mem_cons_self⟩)
    rwa [taken_safe safe]
  · intro epp handed
    rw [seen] at handed
    rcases List.mem_append.mp handed with ping | round
    · cases pings _ ping
    · obtain ⟨c, -, handed⟩ := mem_roundEvents.mp round
      obtain ⟨same, -, e, found, -⟩ := handed_mem_sendEvents.mp handed
      have absent : s.contactList.lookup peerB.key = none := asked.others peerB.key (by decide)
      rw [← same, findNodeMessage, absent] at found
      cases found

end Node

end MiniDht
