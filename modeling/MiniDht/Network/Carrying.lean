import MiniDht.Network.Sockets

/-!
# Messages between sessions

The sessions of the nodes were told messages, of which some were handled at the other end. What
is left is in flight: an event at a session hands over a message, or passes one on, and no
connection adds any (`Carries`).
-/

namespace MiniDht

open Lib Session

namespace Registry

variable {r : Registry} {uep : Endpoint} {msg : BasicMessage} {k : Nat} {s : Session}

theorem sendMessage_new (none : r.mapEpProtoSession uep.proto = none) : r.sendMessage uep msg =
    { r with sessions := r.sessions ++ [({ remote := uep : Session }.connectTo uep).deliver msg] } := by
  rw [sendMessage, none]

theorem sendMessage_known (entry : r.mapEpProtoSession uep.proto = some k)
    (here : r.sessions[k]? = some s) :
    r.sendMessage uep msg = r.put k (s.deliver msg) := by
  rw [sendMessage, entry]
  simp only [here]

theorem sendMessage_dangling (entry : r.mapEpProtoSession uep.proto = some k)
    (here : r.sessions[k]? = none) : r.sendMessage uep msg = r := by
  rw [sendMessage, entry]
  simp only [here]

end Registry

namespace Sockets

variable {ι : Type} [DecidableEq ι] {p : Peers ι} {serialize : MessageProto → List UInt8}

/-! ## What is on its way -/

section Carries

variable (p serialize)

/-- The frame a node makes of a message. -/
def frameOf (i : ι) (m : MessageProto) : BasicMessage :=
  .frame packetSize (p.listen i).port (serialize m)

/-- At the other end of the session is a node that listens on this endpoint. -/
def Faces (listen : Endpoint) (s : Session) : Prop :=
  (s.connect = true → s.ep = listen) ∧ (s.connect = false → s.remote.address = listen.address)

/-- What a session was handed and has not been handled at the other end. -/
def left (c : Ends (ι × Nat)) (told : ι × Nat → List MessageProto) (x : ι × Nat) :
    Multiset (ι × MessageProto) :=
  ((told x).drop (c.heard x)).map (x.1, ·)

/-- The sessions were told these messages, and all that is left of them is in flight. -/
structure Carries (c : Ends (ι × Nat)) (told : ι × Nat → List MessageProto)
    (flight : Multiset (ι × MessageProto)) : Prop where
  joined : c.Joined packetSize fun x => (told x).map (frameOf p serialize x.1)
  fits : ∀ x, ∀ m ∈ told x, (serialize m).length ≤ packetSize - 16
  faces : ∀ x y s, c.peer x = some y → c.session x = some s → Faces (p.listen y.1) s
  flying : ∀ S : Finset (ι × Nat), ∑ x ∈ S, left c told x ≤ flight

variable {p serialize} {c : Ends (ι × Nat)} {told : ι × Nat → List MessageProto}
  {flight : Multiset (ι × MessageProto)} {x y : ι × Nat} {s s' : Session} {e : Session.Event}

omit [DecidableEq ι] in
theorem Faces.sameEnd {listen : Endpoint} (faces : Faces listen s) (same : s.SameEnd s') :
    Faces listen s' := by
  obtain ⟨connect, remote, ep⟩ := same
  constructor
  · intro calls
    rw [connect] at calls
    rw [ep calls]
    exact faces.1 calls
  · intro accepted
    rw [connect] at accepted
    rw [remote]
    exact faces.2 accepted

theorem endpoint_eq {a b : Endpoint} (address : a.address = b.address)
    (port : a.port = b.port) : a = b := by
  cases a
  cases b
  cases address
  cases port
  rfl

/-- An event at one end, with the messages it hands to the session. -/
theorem Carries.event (carries : Carries p serialize c told flight) (here : c.session x = some s)
    (step : s.step packetSize e = some s') (comes : e.input <+: c.coming x) (heard : s'.heard = s.heard)
    (ms : List MessageProto) (delivers : e.delivery.toList = ms.map (frameOf p serialize x.1))
    (fits : ∀ m ∈ ms, (serialize m).length ≤ packetSize - 16) :
    Carries p serialize (c.stepped x s' e) (Function.update told x (told x ++ ms))
      (↑(ms.map (x.1, ·)) + flight) := by
  refine ⟨?_, fun a m mem => ?_, fun a b sa peer there => ?_, fun S => ?_⟩
  · have framed (f : BasicMessage) (mem : f ∈ e.delivery) : f.Framed packetSize := by
      have listed : f ∈ e.delivery.toList := Option.mem_toList.mpr mem
      rw [delivers] at listed
      obtain ⟨m, told, rfl⟩ := List.mem_map.mp listed
      exact ⟨_, _, fits m told, rfl⟩
    have joined := carries.joined.event here step framed comes
    convert joined using 1
    funext a
    by_cases same : a = x
    · subst same
      rw [Function.update_self, Function.update_self, List.map_append, delivers]
    · rw [Function.update_of_ne same, Function.update_of_ne same]
  · by_cases same : a = x
    · subst same
      rw [Function.update_self] at mem
      exact (List.mem_append.mp mem).elim (carries.fits a m) (fits m)
    · rw [Function.update_of_ne same] at mem
      exact carries.fits a m mem
  · by_cases same : a = x
    · subst same
      rw [Ends.stepped_session_self] at there
      obtain rfl := Option.some.inj there
      exact (carries.faces a b s peer here).sameEnd (step_sameEnd step)
    · rw [Ends.stepped_session_ne same] at there
      exact carries.faces a b sa peer there
  · have each (a : ι × Nat) : left (c.stepped x s' e) (Function.update told x (told x ++ ms)) a ≤
        (if a = x then ↑(ms.map (x.1, ·)) else 0) + left c told a := by
      rw [left, left, Ends.heard_stepped here heard]
      by_cases same : a = x
      · subst same
        have fewer (n : Nat) : (↑((ms.drop n).map (a.1, ·)) : Multiset (ι × MessageProto)) ≤
            ↑(ms.map (a.1, ·)) := Multiset.coe_le.mpr ((List.drop_sublist n ms).map _).subperm
        rw [Function.update_self, if_pos rfl, List.drop_append, List.map_append, ← Multiset.coe_add, add_comm]
        exact add_le_add (fewer _) le_rfl
      · rw [Function.update_of_ne same, if_neg same, zero_add]
    calc ∑ a ∈ S, left (c.stepped x s' e) (Function.update told x (told x ++ ms)) a
        ≤ ∑ a ∈ S, ((if a = x then ↑(ms.map (x.1, ·)) else 0) + left c told a) :=
          Finset.sum_le_sum fun a _ => each a
      _ = (if x ∈ S then ↑(ms.map (x.1, ·)) else 0) + ∑ a ∈ S, left c told a := by
          rw [Finset.sum_add_distrib, Finset.sum_ite_eq']
      _ ≤ ↑(ms.map (x.1, ·)) + flight := by
          refine add_le_add ?_ (carries.flying S)
          split
          · exact le_refl _
          · exact Multiset.zero_le _

/-- A message that has been handled is no longer in flight. -/
theorem Carries.handled (carries : Carries p serialize c told flight) (here : c.session x = some s)
    (calls : .message ∈ s.pending) {threw : Bool}
    (step : s.step packetSize (.handled threw) = some s') : ∃ y m rest, c.peer x = some y ∧
      s.readMsg.body = serialize m ∧ s.ep = p.listen y.1 ∧
      flight = (y.1, m) ::ₘ rest ∧ Carries p serialize (c.stepped x s' (.handled threw)) told rest := by
  obtain ⟨y, f, peer, back, next, same, known, ends⟩ := carries.joined.message (by decide) here calls
  simp only [List.getElem?_map] at next
  obtain ⟨m, next', rfl⟩ := Option.map_eq_some_iff.mp next
  have ep : s.ep = p.listen y.1 := by
    obtain ⟨calling, accepted⟩ := carries.faces x y s peer here
    cases connect : s.connect with
    | true => exact calling connect
    | false =>
      rw [known.resolve_left (by simp [connect])]
      exact endpoint_eq (accepted connect) rfl
  have before : c.heard y = s.heard := Ends.heard_peer back here
  have after : (c.stepped x s' (.handled threw)).heard y = s.heard + 1 :=
    (Ends.heard_peer (c := c.stepped x s' _) back (Ends.stepped_session_self ..)).trans (ends threw s' step)
  have kept (a : ι × Nat) (ne : a ≠ y) : (c.stepped x s' (.handled threw)).heard a = c.heard a := by
    refine Ends.heard_congr rfl fun z toZ => Ends.stepped_session_ne ?_ ..
    rintro rfl
    obtain ⟨toA, -, -⟩ := carries.joined.paired a z toZ
    rw [peer] at toA
    exact ne (Option.some.inj toA).symm
  have splits (a : ι × Nat) : left c told a =
      (if a = y then {(y.1, m)} else 0) + left (c.stepped x s' (.handled threw)) told a := by
    by_cases toY : a = y
    · subst toY
      obtain ⟨inside, rfl⟩ := List.getElem?_eq_some_iff.mp next'
      rw [if_pos rfl, left, left, before, after, List.drop_eq_getElem_cons inside, List.map_cons]
      rfl
    · rw [if_neg toY, zero_add, left, left, kept a toY]
  have flying (S : Finset (ι × Nat)) (mem : y ∈ S) :
      {(y.1, m)} + ∑ a ∈ S, left (c.stepped x s' (.handled threw)) told a ≤ flight := by
    have all := carries.flying S
    rwa [Finset.sum_congr rfl fun a _ => splits a, Finset.sum_add_distrib, Finset.sum_ite_eq',
      if_pos mem] at all
  have member : (y.1, m) ∈ flight :=
    Multiset.mem_of_le (flying {y} (Finset.mem_singleton_self y)) (Multiset.mem_add.mpr
      (.inl (Multiset.mem_singleton_self _)))
  obtain ⟨rest, rfl⟩ := Multiset.exists_cons_of_mem member
  have body : (frameOf p serialize y.1 m).body = serialize m := by
    show (serialize m).take _ = _
    rw [BasicMessage.min_maxBodyLength (carries.fits y m (List.mem_of_getElem? next')), List.take_length]
  refine ⟨y, m, rest, peer, (congrArg Prod.snd same).trans body, ep, rfl, ?_, carries.fits,
    fun a b sa peer' there => ?_, fun S => ?_⟩
  · have joined := carries.joined.event here step (by simp [Session.Event.delivery]) List.nil_prefix
    convert joined using 1
    funext a
    by_cases toX : a = x
    · subst toX
      rw [Function.update_self]
      exact (List.append_nil _).symm
    · rw [Function.update_of_ne toX]
  · by_cases toX : a = x
    · subst toX
      rw [Ends.stepped_session_self] at there
      obtain rfl := Option.some.inj there
      exact (carries.faces a b s peer' here).sameEnd (step_sameEnd step)
    · rw [Ends.stepped_session_ne toX] at there
      exact carries.faces a b sa peer' there
  · have whole := flying (insert y S) (Finset.mem_insert_self y S)
    rw [Multiset.singleton_add, Multiset.cons_le_cons_iff] at whole
    exact (Finset.sum_le_sum_of_subset (Finset.subset_insert y S)).trans whole

/-- A new session. -/
theorem Carries.begin (carries : Carries p serialize c told flight) (free : c.session x = none)
    (new : Lived packetSize [] s) :
    Carries p serialize (c.put x s) told flight := by
  have unlinked {a b : ι × Nat} (peer : c.peer a = some b) : a ≠ x := by
    rintro rfl
    obtain ⟨-, -, s', there⟩ := carries.joined.paired a b peer
    rw [free] at there
    cases there
  have heard (a : ι × Nat) : (c.put x s).heard a = c.heard a :=
    Ends.heard_congr rfl fun z toZ =>
      Function.update_of_ne (unlinked (carries.joined.paired a z toZ).1) ..
  refine ⟨carries.joined.begin free new, carries.fits, fun a b sa peer there => ?_, fun S => ?_⟩
  · change Function.update c.session x (some s) a = some sa at there
    rw [Function.update_of_ne (unlinked peer)] at there
    exact carries.faces a b sa peer there
  · refine (Finset.sum_congr rfl fun a _ => ?_).trans_le (carries.flying S)
    rw [left, left, heard]

/-- The new session becomes the other end of one that connects to its node. -/
theorem Carries.join (carries : Carries p serialize c told flight) (here : c.session x = some s)
    (alone : c.peer x = none) (there : c.session y = some s') (alone' : c.peer y = none)
    (new : Lived packetSize [] s') (unsent : told y = []) (other : x ≠ y)
    (faces : Faces (p.listen y.1) s) (faces' : Faces (p.listen x.1) s') :
    Carries p serialize (c.link x y) told flight := by
  refine ⟨carries.joined.join here alone there alone' new (by rw [unsent]; rfl) other,
    carries.fits, fun a b sa peer at_a => ?_, fun S => ?_⟩
  · change Function.update (Function.update c.peer x (some y)) y (some x) a = some b at peer
    by_cases last : a = y
    · subst last
      rw [Function.update_self] at peer
      obtain rfl := Option.some.inj peer
      obtain rfl := Option.some.inj (there.symm.trans at_a)
      exact faces'
    · rw [Function.update_of_ne last] at peer
      by_cases first : a = x
      · subst first
        rw [Function.update_self] at peer
        obtain rfl := Option.some.inj peer
        obtain rfl := Option.some.inj (here.symm.trans at_a)
        exact faces
      · rw [Function.update_of_ne first] at peer
        exact carries.faces a b sa peer at_a
  · refine (Finset.sum_congr rfl fun a _ => ?_).trans_le (carries.flying S)
    by_cases last : a = y
    · rw [left, left, last, unsent, List.drop_nil, List.drop_nil]
    · rw [left, left]
      by_cases first : a = x
      · subst first
        have none : s'.heard = 0 := by rw [Session.heard, (new.fresh rfl).2.1]; exact Nat.zero_sub _
        have still : (c.link a y).heard a = s'.heard :=
          Ends.heard_peer ((Function.update_of_ne last ..).trans (Function.update_self ..)) there
        rw [Ends.heard_alone alone, still, none]
      · rw [Ends.heard_congr (c := c)]
        · exact (Function.update_of_ne last ..).trans (Function.update_of_ne first ..)
        · exact fun _ _ => rfl

end Carries

/-! ## The sessions of a node -/

/-- The sessions of one node change. -/
def put (w : Sockets ι) (i : ι) (r : Registry) : Sockets ι :=
  { w with registry := Function.update w.registry i r }

section Put

variable {w : Sockets ι} {i : ι} {k : Nat} {r r' : Registry} {s s₀ : Session} {m : MessageProto}
  {uep : Endpoint} {told : ι × Nat → List MessageProto} {flight : Multiset (ι × MessageProto)}

@[simp] theorem put_registry_self (w : Sockets ι) (i : ι) (r : Registry) : (w.put i r).registry i = r :=
  Function.update_self ..

@[simp] theorem put_put (w : Sockets ι) (i : ι) (r r' : Registry) : (w.put i r).put i r' = w.put i r' := by
  rw [put, put, put, Function.update_idem]

theorem ends_put (session : ∀ k', r.sessions[k']? = if k' = k then some s else (w.registry i).sessions[k']?) :
    (w.put i r).ends = w.ends.put (i, k) s := by
  rw [ends, ends, Ends.put, put]
  congr 1
  funext x
  obtain ⟨j, k'⟩ := x
  by_cases same : j = i
  · subst same
    dsimp only
    rw [Function.update_self, session]
    by_cases own : k' = k
    · rw [own, if_pos rfl, Function.update_self]
    · rw [if_neg own, Function.update_of_ne (fun h => own (congrArg Prod.snd h))]
  · dsimp only
    rw [Function.update_of_ne same, Function.update_of_ne (fun h => same (congrArg Prod.fst h))]

theorem ends_set (here : w.ends.session (i, k) = some s₀)
    (sessions : r.sessions = (w.registry i).sessions.set k s) : (w.put i r).ends = w.ends.put (i, k) s := by
  obtain ⟨inside, -⟩ := List.getElem?_eq_some_iff.mp here
  refine ends_put fun k' => ?_
  rw [sessions, List.getElem?_set]
  by_cases own : k' = k
  · subst own
    rw [if_pos rfl, if_pos rfl, if_pos inside]
  · rw [if_neg (Ne.symm own), if_neg own]

theorem ends_append (sessions : r.sessions = (w.registry i).sessions ++ [s]) :
    (w.put i r).ends = w.ends.put (i, (w.registry i).sessions.length) s := by
  refine ends_put fun k' => ?_
  rw [sessions]
  by_cases own : k' = (w.registry i).sessions.length
  · rw [if_pos own, own, List.getElem?_concat_length]
  · rw [if_neg own, List.getElem?_append]
    split
    · rfl
    · rw [List.getElem?_singleton, if_neg (by omega), List.getElem?_eq_none (by omega)]

/-- A message that is handed over fits into a frame. -/
theorem hand_ok {listenPort : UInt16} (hands : Registry.hand serialize listenPort r m uep = .ok r') :
    (serialize m).length ≤ packetSize - 16 ∧
      r' = r.sendMessage uep (.frame packetSize listenPort (serialize m)) := by
  by_cases fits : (serialize m).length ≤ BasicMessage.maxBodyLength packetSize
  · refine ⟨fits, ?_⟩
    rw [Registry.hand] at hands
    simp only [BasicMessage.copyBody_fits fits] at hands
    have same := Except.ok.inj hands
    rw [BasicMessage.frame_eq fits] at same
    exact same.symm
  · rw [Registry.hand] at hands
    simp only [BasicMessage.copyBody_large (not_le.mp fits)] at hands
    cases hands

/-- A message that a node hands to a session is in flight. -/
theorem Carries.hand (carries : Carries p serialize w.ends told flight)
    (hands : Registry.hand serialize (p.listen i).port (w.registry i) m uep = .ok r) :
    ∃ told', Carries p serialize (w.put i r).ends told' ((i, m) ::ₘ flight) := by
  obtain ⟨fits, rfl⟩ := hand_ok hands
  let f : BasicMessage := .frame packetSize (p.listen i).port (serialize m)
  have delivers {c : Ends (ι × Nat)} {k : Nat} {s : Session} {told : ι × Nat → List MessageProto}
      (carries : Carries p serialize c told flight) (here : c.session (i, k) = some s) :
      Carries p serialize (c.put (i, k) (s.deliver f)) (Function.update told (i, k) (told (i, k) ++ [m]))
        ((i, m) ::ₘ flight) := by
    have step : s.step packetSize (.deliver f) = some (s.deliver f) := rfl
    have handed := carries.event here step List.nil_prefix (step_heard step (by simp)) [m] rfl
      (List.forall_mem_singleton.mpr fits)
    rwa [Ends.stepped_of_input _ _ _ rfl] at handed
  cases entry : (w.registry i).mapEpProtoSession uep.proto with
  | none =>
    let s : Session := { remote := uep : Session }.connectTo uep
    have free : w.ends.session (i, (w.registry i).sessions.length) = none :=
      List.getElem?_eq_none le_rfl
    have begun := carries.begin free (.connecting uep uep : Lived packetSize [] s)
    have handed := delivers begun (Function.update_self ..)
    have sends : (w.registry i).sendMessage uep f = _ := Registry.sendMessage_new entry
    have sessions := congrArg Registry.sessions sends
    rw [Ends.put_put, ← ends_append sessions] at handed
    exact ⟨_, handed⟩
  | some k =>
    cases here : (w.registry i).sessions[k]? with
    | none =>
      refine ⟨told, ?_⟩
      rw [Registry.sendMessage_dangling entry here, put, Function.update_eq_self]
      exact { carries with
        flying := fun S => (carries.flying S).trans (Multiset.le_cons_self _ _) }
    | some s =>
      have handed := delivers carries (k := k) here
      have sends : (w.registry i).sendMessage uep f = _ := Registry.sendMessage_known entry here
      have sessions := congrArg Registry.sessions sends
      rw [← ends_set here sessions] at handed
      exact ⟨_, handed⟩

/-- So is all that a node sends. -/
theorem Carries.handAll {es : List Event} (carries : Carries p serialize w.ends told flight)
    (hands : Registry.handAll serialize (p.listen i).port (w.registry i) es = .ok r) :
    ∃ told', Carries p serialize (w.put i r).ends told' (Traffic.given i es + flight) := by
  induction es generalizing w told flight with
  | nil =>
    obtain rfl := Except.ok.inj hands
    rw [put, Function.update_eq_self]
    exact ⟨told, by simpa [Traffic.given, Node.delivered] using carries⟩
  | cons e es ih =>
    cases e with
    | delivered m uep =>
      rw [Registry.handAll] at hands
      cases first : Registry.hand serialize (p.listen i).port (w.registry i) m uep with
      | error fault =>
        rw [first] at hands
        cases hands
      | ok r₁ =>
        rw [first] at hands
        obtain ⟨told₁, carries₁⟩ := carries.hand first
        have rest : Registry.handAll serialize (p.listen i).port ((w.put i r₁).registry i) es = .ok r := by
          rw [put_registry_self]
          exact hands
        obtain ⟨told', carries'⟩ := ih carries₁ rest
        rw [put_put] at carries'
        refine ⟨told', ?_⟩
        have more : Traffic.given i (.delivered m uep :: es) = (i, m) ::ₘ Traffic.given i es := rfl
        rw [more, Multiset.cons_add, ← Multiset.add_cons]
        exact carries'
    | overrun m uep => cases hands
    | request m => exact ih carries hands
    | handed m epp => exact ih carries hands

omit [DecidableEq ι] in
theorem message_deliver {msg : BasicMessage} (calls : .message ∈ s.pending) :
    .message ∈ (s.deliver msg).pending := by
  rw [deliver]
  split
  · exact calls
  · exact List.mem_cons_of_mem _ calls

omit [DecidableEq ι] in
/-- A session that is handed messages has read no more than before. -/
theorem handAll_alike {listenPort : UInt16} {es : List Event}
    (hands : Registry.handAll serialize listenPort r es = .ok r') (here : r.sessions[k]? = some s)
    (calls : .message ∈ s.pending) :
    ∃ s', r'.sessions[k]? = some s' ∧ s.Alike s' ∧ .message ∈ s'.pending := by
  induction es generalizing r s with
  | nil =>
    obtain rfl := Except.ok.inj hands
    exact ⟨s, here, ⟨rfl, rfl, rfl, rfl, rfl⟩, calls⟩
  | cons e es ih =>
    cases e with
    | delivered m uep =>
      rw [Registry.handAll] at hands
      cases first : Registry.hand serialize listenPort r m uep with
      | error fault =>
        rw [first] at hands
        cases hands
      | ok r₁ =>
        rw [first] at hands
        obtain ⟨-, rfl⟩ := hand_ok first
        let f : BasicMessage := .frame packetSize listenPort (serialize m)
        have kept : ∃ s₁, (r.sendMessage uep f).sessions[k]? = some s₁ ∧ s.Alike s₁ ∧ .message ∈ s₁.pending := by
          have stepped : r.step packetSize (.sent uep listenPort (serialize m)) = some (r.sendMessage uep f) := rfl
          obtain ⟨s₁, there⟩ := Registry.step_kept stepped here
          refine ⟨s₁, there, ?_⟩
          cases Registry.step_came stepped there with
          | kept was other =>
            obtain rfl := Option.some.inj (here.symm.trans was)
            exact ⟨⟨rfl, rfl, rfl, rfl, rfl⟩, calls⟩
          | delivered s₀ msg was idle delivers =>
            obtain rfl := Option.some.inj (here.symm.trans was)
            subst delivers
            exact ⟨alike_deliver s msg, message_deliver calls⟩
          | completed s₀ e was same stepped => cases same
          | begun fresh idle past lived works =>
            rw [here] at fresh
            cases fresh
        obtain ⟨s₁, here₁, alike, calls₁⟩ := kept
        obtain ⟨s', there, alike', calls'⟩ := ih hands here₁ calls₁
        exact ⟨s', there, alike.trans alike', calls'⟩
    | overrun m uep => cases hands
    | request m => exact ih hands here calls
    | handed m epp => exact ih hands here calls

end Put

end Sockets

end MiniDht
