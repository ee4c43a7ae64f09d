import MiniDht.Bucket.Filing
import MiniDht.Lib.Chunks
import MiniDht.Node.Sent

/-!
# The reply to a FIND_NODE

`reply_FIND_NODE` walks the contact list and sends a packet whenever it holds `ALPHA`
contacts and at the end of the list. Every contact goes out once, and the packets are the
list cut after every `ALPHA` contacts.
-/

namespace MiniDht

open Lib

namespace Node

variable {w : World} {s : Node} {m : MessageProto} {toId : String} {t : Token} {c : ContactProto}

/-- `send_MESSAGE(m)` hands over what is for `toId`: a contact with an endpoint is under it. -/
structure Routable (s : Node) (toId : String) (c : ContactProto) : Prop where
  nonzero : toId ≠ zeroId
  other : toId ≠ s.id
  found : s.contactList.lookup toId = some c
  named : c.ep.Named

theorem Routable.logged (routable : s.Routable toId c) (es : List Event) :
    (s.logged es).Routable toId c :=
  ⟨routable.nonzero, routable.other, routable.found, routable.named⟩

/-- What is seen of messages that are handed over one after the other. -/
def sendAll (w : World) (epp : EndpointProto) (ms : List MessageProto) : List Event :=
  ms.flatMap fun m => .request m :: handOver w m epp

theorem sendAll_cons (epp : EndpointProto) (ms : List MessageProto) :
    sendAll w epp (m :: ms) = (.request m :: handOver w m epp) ++ sendAll w epp ms :=
  List.flatMap_cons

theorem exec_sendMessage_routable (routable : s.Routable m.toId c) :
    Act.exec (sendMessage w m) s = (.ok (), s.logged (.request m :: handOver w m c.ep)) :=
  exec_sendMessage_found routable.nonzero routable.other routable.found routable.named

/-! ## The loop -/

theorem alpha_pos : 0 < alpha := by decide

theorem sendContacts_cons (first : ContactProto) (rest : List ContactProto) :
    sendContacts w m (first :: rest) =
      if alpha ≤ (m.contactList ++ [first]).length ∨ rest = [] then do
        sendMessage w { m with contactList := m.contactList ++ [first] }
        sendContacts w { m with contactList := [] } rest
      else sendContacts w { m with contactList := m.contactList ++ [first] } rest :=
  rfl

/-- What has been gathered and what is left goes out in pieces of `ALPHA`. Between two
rounds less than a packet has been gathered, and nothing once the end is reached. -/
theorem exec_sendContacts {lc : List ContactProto} (routable : s.Routable m.toId c)
    (room : m.contactList.length < alpha) (ends : lc = [] → m.contactList = []) :
    ∃ parts, Chunks alpha (m.contactList ++ lc) parts ∧
      Act.exec (sendContacts w m lc) s =
        (.ok (), s.logged (sendAll w c.ep (parts.map fun part => { m with contactList := part }))) := by
  induction lc generalizing m s with
  | nil =>
    rw [ends rfl]
    exact ⟨[], .nil alpha, by simp [sendContacts, sendAll]⟩
  | cons first rest ih =>
    let packet : MessageProto := { m with contactList := m.contactList ++ [first] }
    have gathered : (m.contactList ++ [first]).length = m.contactList.length + 1 := List.length_append
    have sent := exec_sendMessage_routable (w := w) (m := packet) routable
    rw [sendContacts_cons]
    by_cases last : rest = []
    · subst last
      have some : 1 ≤ (m.contactList ++ [first]).length := by omega
      have fits : (m.contactList ++ [first]).length ≤ alpha := by omega
      refine ⟨[m.contactList ++ [first]], .single some fits, ?_⟩
      rw [if_pos (.inr rfl), Act.exec_bind_ok sent]
      simp [sendContacts, sendAll, packet]
    · by_cases full : alpha ≤ (m.contactList ++ [first]).length
      · obtain ⟨parts, chunks, run⟩ := ih (m := { m with contactList := [] })
          (s := s.logged (.request packet :: handOver w packet c.ep)) (routable.logged _) alpha_pos
          fun _ => rfl
        have whole : (m.contactList ++ [first]).length = alpha := by omega
        refine ⟨(m.contactList ++ [first]) :: parts, ?_, ?_⟩
        · have more := chunks.cons alpha_pos whole
          rwa [List.nil_append, List.append_assoc] at more
        · rw [if_pos (.inl full), Act.exec_bind_ok sent, run, logged_logged, List.map_cons,
            sendAll_cons]
      · obtain ⟨parts, chunks, run⟩ := ih (m := packet) routable (not_le.mp full)
          fun none => absurd none last
        refine ⟨parts, ?_, ?_⟩
        · rwa [List.append_assoc] at chunks
        · rw [if_neg (not_or.mpr ⟨full, last⟩), run]

/-! ## The packets -/

/-- A `REPLY_FIND_NODE` with some of the contacts. -/
def nodeReply (fromId toId : String) (t : Token) (part : List ContactProto) : MessageProto :=
  { type := .replyFindNode, fromId := fromId, token := t, toId := toId, contactList := part }

/-- The messages `send_MESSAGE(m, epp)` was called with. -/
def handed (es : List Event) : List (MessageProto × EndpointProto) :=
  es.filterMap fun
    | .handed m epp => some (m, epp)
    | _ => none

/-- The packets given to `session::deliver`. -/
def delivered (es : List Event) : List (MessageProto × Endpoint) :=
  es.filterMap fun
    | .delivered m uep => some (m, uep)
    | _ => none

theorem requests_sendAll (epp : EndpointProto) (ms : List MessageProto) :
    requests (sendAll w epp ms) = ms := by
  induction ms with
  | nil => rfl
  | cons m ms ih =>
    rw [sendAll_cons, requests_append, ih]
    exact congrArg (fun more => (m :: more) ++ ms) (requests_handOver epp)

theorem handed_sendAll (epp : EndpointProto) (ms : List MessageProto) :
    handed (sendAll w epp ms) = ms.map (·, epp) := by
  have one (m : MessageProto) : handed (.request m :: handOver w m epp) = [(m, epp)] := by
    unfold handOver
    cases w.resolve epp with
    | none => rfl
    | some uep =>
      simp only []
      split <;> rfl
  induction ms with
  | nil => rfl
  | cons m ms ih =>
    rw [sendAll_cons, handed, List.filterMap_append]
    exact congr (congrArg (· ++ ·) (one m)) ih

/-- Where the endpoint resolves, every message that fits a packet is delivered. -/
theorem delivered_sendAll {epp : EndpointProto} {uep : Endpoint} (resolves : w.resolve epp = some uep)
    {ms : List MessageProto} (fit : ∀ m ∈ ms, w.byteSize m ≤ maxBodyLength) :
    delivered (sendAll w epp ms) = ms.map (·, uep) := by
  induction ms with
  | nil => rfl
  | cons m ms ih =>
    have one : delivered (.request m :: handOver w m epp) = [(m, uep)] := by
      simp only [handOver, resolves, if_neg (not_lt.mpr (fit m List.mem_cons_self))]
      rfl
    rw [sendAll_cons, delivered, List.filterMap_append]
    exact congr (congrArg (· ++ ·) one) (ih fun m later => fit m (List.mem_cons_of_mem _ later))

theorem exec_replyFindNode (routable : s.Routable toId c) :
    ∃ parts, Chunks alpha (s.contactList.entries.map Prod.snd) parts ∧
      Act.exec (replyFindNode w toId t) s =
        (.ok (), s.logged (sendAll w c.ep (parts.map (nodeReply s.id toId t)))) := by
  obtain ⟨parts, chunks, run⟩ := exec_sendContacts (w := w)
    (m := { type := .replyFindNode, fromId := s.id, token := t, toId := toId }) routable alpha_pos
    fun _ => rfl
  refine ⟨parts, chunks, ?_⟩
  rw [replyFindNode, exec_checked routable.nonzero, exec_catch_bind (Act.exec_get s), Act.exec_catchStd, run]
  rfl

theorem exec_replyFindNode_empty (nonzero : toId ≠ zeroId) (empty : s.contactList.entries = []) :
    Act.exec (replyFindNode w toId t) s = (.ok (), s) := by
  rw [replyFindNode, exec_checked nonzero, exec_catch_bind (Act.exec_get s), Act.exec_catchStd, empty]
  rfl

/-- **The reply to a FIND_NODE.** The packets a contact is sent hold the whole contact list in
order, `ALPHA` contacts each and what is left in the last. They are handed to its endpoint in
turn, and delivered if that resolves and they fit. For an empty list nothing is sent. -/
theorem replyFindNode_covers (w : World) (s : Node) (toId : String) (t : Token) :
    (∀ c, s.Routable toId c → ∃ parts es, Chunks alpha (s.contactList.entries.map Prod.snd) parts ∧
      Act.exec (replyFindNode w toId t) s = (.ok (), s.logged es) ∧
      requests es = parts.map (nodeReply s.id toId t) ∧
      handed es = (parts.map (nodeReply s.id toId t)).map (·, c.ep) ∧
      ∀ uep, w.resolve c.ep = some uep →
        (∀ part ∈ parts, w.byteSize (nodeReply s.id toId t part) ≤ maxBodyLength) →
        delivered es = (parts.map (nodeReply s.id toId t)).map (·, uep)) ∧
    (toId ≠ zeroId → s.contactList.entries = [] →
      Act.exec (replyFindNode w toId t) s = (.ok (), s)) := by
  refine ⟨fun c routable => ?_, exec_replyFindNode_empty⟩
  obtain ⟨parts, chunks, run⟩ := exec_replyFindNode (w := w) (t := t) routable
  refine ⟨parts, _, chunks, run, requests_sendAll _ _, handed_sendAll _ _, ?_⟩
  intro uep resolves fit
  apply delivered_sendAll resolves
  intro m member
  obtain ⟨part, there, rfl⟩ := List.mem_map.mp member
  exact fit part there

/-- Four peers. -/
def four : List (Int × String) :=
  [(1, keyToString 2), (2, keyToString 3), (3, keyToString 4), (4, keyToString 5)]

/-- One of four contacts asks: it gets two packets, of three contacts and of one. -/
theorem replyFindNode_covers_four : ∃ (s : Node) (parts : List (List ContactProto)) (es : List Event)
    (uep : Endpoint), Bucket.Reached (fun _ => True) s.id s.contactList ∧
      s.contactList.entries.length = 4 ∧ parts.map List.length = [3, 1] ∧
      Act.exec (replyFindNode (.simple []) (keyToString 2) 7) s = (.ok (), s.logged es) ∧
      delivered es = (parts.map (nodeReply s.id (keyToString 2) 7)).map (·, uep) := by
  obtain ⟨some, length, e, there, key, ep⟩ : Bucket.made (keyToString 1) four ≠ [] ∧
      (Bucket.made (keyToString 1) four).length = 4 ∧ ∃ e ∈ Bucket.made (keyToString 1) four,
        e.2.key = keyToString 2 ∧ e.2.ep = ⟨"10.0.0.2", "4000"⟩ := by decide +kernel
  obtain ⟨b, -, entries, reach⟩ := @Bucket.exists_made (fun _ => True) _ _ (fun _ _ => trivial) some
  rw [← entries] at length there
  let s : Node :=
    { id := keyToString 1, maxRecords := 10, contactList := b, dbStorage := { tables := {} }
      dbBackup := { tables := [] } }
  have routable : s.Routable (keyToString 2) e.2 :=
    { nonzero := by decide +kernel
      other := (by decide +kernel : keyToString 2 ≠ keyToString 1)
      found := key ▸ reach.filed.lookup_of_mem there
      named := ep ▸ (by decide) }
  obtain ⟨parts, es, chunks, run, -, -, sent⟩ :=
    (replyFindNode_covers (.simple []) s (keyToString 2) 7).1 e.2 routable
  have resolved : ((World.simple []).resolve ⟨"10.0.0.2", "4000"⟩).isSome = true := by decide
  obtain ⟨uep, resolved⟩ := Option.isSome_iff_exists.mp resolved
  refine ⟨s, parts, es, uep, reach, length, ?_, run, sent uep (ep ▸ resolved) fun _ _ => Nat.zero_le _⟩
  have flat := congrArg List.length chunks.flatten
  rw [List.length_flatten, List.length_map, length] at flat
  obtain ⟨-, bounds, full⟩ := chunks
  rcases parts with _ | ⟨p, _ | ⟨q, _ | ⟨r, rest⟩⟩⟩
  · cases flat
  · have few := (bounds p (by simp)).2
    simp only [List.map_cons, List.map_nil, List.sum_cons, List.sum_nil, alpha] at flat few
    omega
  · have whole := full p (by simp)
    simp only [List.map_cons, List.map_nil, List.sum_cons, List.sum_nil, alpha] at flat whole
    simp only [List.map_cons, List.map_nil, List.cons.injEq, and_true]
    omega
  · have whole := full p (by simp)
    have whole' := full q (by simp)
    simp only [List.map_cons, List.sum_cons, alpha] at flat whole whole'
    omega

end Node

end MiniDht
