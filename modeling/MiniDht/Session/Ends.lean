import Mathlib.Logic.Function.Basic
import MiniDht.Session.Link

/-!
# The ends of connections

Any number of sessions, some of which are the two ends of a connection: what one of them
writes the other one reads. Both directions of every connection stay in step, whatever happens
at which end (`Joined.event`).
-/

namespace MiniDht

open Session

variable {E : Type}

/-- Sessions by the places they have, the other end of each, and how many bytes have come in. -/
structure Ends (E : Type) where
  session : E → Option Session
  peer : E → Option E
  taken : E → Nat

namespace Ends

/-- The bytes that have been written at the other end and have not come in. -/
def coming (c : Ends E) (x : E) : List UInt8 :=
  match (c.peer x).bind c.session with
  | none => []
  | some writer => (streamOf writer.handedOver).drop (c.taken x)

/-- How many messages of a session have been handled at the other end. -/
def heard (c : Ends E) (x : E) : Nat :=
  match (c.peer x).bind c.session with
  | none => 0
  | some reader => reader.heard

/-- Every session was handed the messages in `sent`, and the two sessions of a connection are
linked in both directions. A session without another end is ready for one. -/
structure Joined (packetSize : Nat) (c : Ends E) (sent : E → List BasicMessage) : Prop where
  paired : ∀ x y, c.peer x = some y → c.peer y = some x ∧ x ≠ y ∧ ∃ s, c.session x = some s
  linked : ∀ x y s s', c.peer x = some y → c.session x = some s → c.session y = some s' →
    Linked packetSize (sent y) s' s (c.taken x)
  ready : ∀ x s, c.session x = some s → c.peer x = none → c.taken x = 0 ∧ ∀ f, Lived packetSize [] f →
    Linked packetSize (sent x) s f 0 ∧ Linked packetSize [] f s 0
  empty : ∀ x, c.session x = none → c.taken x = 0 ∧ sent x = []

variable [DecidableEq E] {packetSize : Nat} {c : Ends E} {sent : E → List BasicMessage} {x y : E}
  {s s' : Session} {e : Session.Event}

/-- A session is put at a place. -/
def put (c : Ends E) (x : E) (s : Session) : Ends E :=
  { c with session := Function.update c.session x (some s) }

/-- Two sessions become the ends of one connection. -/
def link (c : Ends E) (x y : E) : Ends E :=
  { c with peer := Function.update (Function.update c.peer x (some y)) y (some x) }

/-- What an event of one session makes of the ends. -/
def stepped (c : Ends E) (x : E) (s : Session) (e : Session.Event) : Ends E :=
  { c with
    session := Function.update c.session x (some s)
    taken := Function.update c.taken x (c.taken x + e.input.length) }

theorem put_put (c : Ends E) (x : E) (s s' : Session) : (c.put x s).put x s' = c.put x s' := by
  rw [put, put, put, Function.update_idem]

@[simp] theorem stepped_session_self (c : Ends E) (x : E) (s : Session) (e : Session.Event) :
    (c.stepped x s e).session x = some s := Function.update_self ..

theorem stepped_session_ne {a : E} (ne : a ≠ x) (c : Ends E) (s : Session) (e : Session.Event) :
    (c.stepped x s e).session a = c.session a := Function.update_of_ne ne ..

@[simp] theorem stepped_taken_self (c : Ends E) (x : E) (s : Session) (e : Session.Event) :
    (c.stepped x s e).taken x = c.taken x + e.input.length := Function.update_self ..

theorem stepped_taken_ne {a : E} (ne : a ≠ x) (c : Ends E) (s : Session) (e : Session.Event) :
    (c.stepped x s e).taken a = c.taken a := Function.update_of_ne ne ..

/-- An event that brings nothing in changes one session. -/
theorem stepped_of_input (c : Ends E) (x : E) (s : Session) (none : e.input = []) :
    c.stepped x s e = c.put x s := by
  rw [stepped, none, List.length_nil, Nat.add_zero, Function.update_eq_self]
  rfl

omit [DecidableEq E] in
theorem coming_alone (alone : c.peer x = none) : c.coming x = [] := by rw [coming, alone]; rfl

omit [DecidableEq E] in
theorem coming_peer (peer : c.peer x = some y) (there : c.session y = some s) :
    c.coming x = (streamOf s.handedOver).drop (c.taken x) := by
  rw [coming, peer, Option.bind_some, there]

omit [DecidableEq E] in
theorem heard_alone (alone : c.peer x = none) : c.heard x = 0 := by rw [heard, alone]; rfl

omit [DecidableEq E] in
theorem heard_peer (peer : c.peer x = some y) (there : c.session y = some s) : c.heard x = s.heard := by
  rw [heard, peer, Option.bind_some, there]

omit [DecidableEq E] in
theorem heard_congr {c' : Ends E} (peer : c'.peer x = c.peer x)
    (there : ∀ y, c.peer x = some y → c'.session y = c.session y) : c'.heard x = c.heard x := by
  rw [heard, heard, peer]
  cases toY : c.peer x with
  | none => rfl
  | some y => rw [Option.bind_some, Option.bind_some, there y toY]

/-- **One event** at one end. -/
theorem Joined.event (joined : c.Joined packetSize sent) (here : c.session x = some s)
    (step : s.step packetSize e = some s') (fits : ∀ m ∈ e.delivery, m.Framed packetSize)
    (comes : e.input <+: c.coming x) :
    (c.stepped x s' e).Joined packetSize (Function.update sent x (sent x ++ e.delivery.toList)) := by
  refine ⟨fun a b peer => ?_, fun a b sa sb peer at_a at_b => ?_, fun a sa at_a alone => ?_, fun a none => ?_⟩
  · obtain ⟨back, other, sa, there⟩ := joined.paired a b peer
    refine ⟨back, other, ?_⟩
    by_cases same : a = x
    · exact ⟨s', by rw [same, stepped_session_self]⟩
    · exact ⟨sa, by rw [stepped_session_ne same, there]⟩
  · replace peer : c.peer a = some b := peer
    have other := (joined.paired a b peer).2.1
    by_cases reader : a = x
    · -- the session reads, and the one at the other end is as before
      subst reader
      have kept : b ≠ a := other.symm
      rw [stepped_session_self] at at_a
      rw [stepped_session_ne kept] at at_b
      obtain rfl := Option.some.inj at_a
      rw [coming_peer peer at_b] at comes
      rw [Function.update_of_ne kept, stepped_taken_self]
      exact (joined.linked a b s sb peer here at_b).reads comes step
    · rw [stepped_session_ne reader] at at_a
      rw [stepped_taken_ne reader]
      by_cases writer : b = x
      · subst writer
        rw [stepped_session_self] at at_b
        obtain rfl := Option.some.inj at_b
        rw [Function.update_self]
        exact (joined.linked a b sa s peer at_a here).writes fits step
      · rw [stepped_session_ne writer] at at_b
        rw [Function.update_of_ne writer]
        exact joined.linked a b sa sb peer at_a at_b
  · replace alone : c.peer a = none := alone
    by_cases same : a = x
    · subst same
      rw [stepped_session_self] at at_a
      obtain rfl := Option.some.inj at_a
      obtain ⟨untaken, ready⟩ := joined.ready a s here alone
      rw [coming_alone alone] at comes
      have nothing : e.input = [] := List.prefix_nil.mp comes
      rw [stepped_taken_self, Function.update_self, nothing, untaken]
      refine ⟨rfl, fun f new => ⟨(ready f new).1.writes fits step, ?_⟩⟩
      have reads := (ready f new).2.reads (by rw [nothing]; exact List.nil_prefix) step
      rwa [nothing] at reads
    · rw [stepped_session_ne same] at at_a
      rw [stepped_taken_ne same, Function.update_of_ne same]
      exact joined.ready a sa at_a alone
  · by_cases same : a = x
    · rw [same, stepped_session_self] at none
      cases none
    · rw [stepped_session_ne same] at none
      rw [stepped_taken_ne same, Function.update_of_ne same]
      exact joined.empty a none

/-- An event that ends no call leaves what has been handled. -/
theorem heard_stepped (here : c.session x = some s) (same : s'.heard = s.heard) (y : E) :
    (c.stepped x s' e).heard y = c.heard y := by
  by_cases reader : c.peer y = some x
  · have peer : (c.stepped x s' e).peer y = some x := reader
    rw [heard_peer reader here, heard_peer peer (stepped_session_self ..), same]
  · refine heard_congr rfl fun z toZ => stepped_session_ne ?_ ..
    rintro rfl
    exact reader toZ

omit [DecidableEq E] in
/-- The message for which a session calls is the next one from its other end. -/
theorem Joined.message (joined : c.Joined packetSize sent) (range : 16 ≤ packetSize ∧ packetSize ≤ 10 ^ 8)
    (here : c.session x = some s) (calls : .message ∈ s.pending) : ∃ y m, c.peer x = some y ∧
      c.peer y = some x ∧ (sent y)[s.heard]? = some m ∧ s.readMsg.told = m.told ∧
      (s.connect = true ∨ s.ep = { s.remote with port := m.listenPort }) ∧
      ∀ threw s', s.step packetSize (.handled threw) = some s' → s'.heard = s.heard + 1 := by
  cases peer : c.peer x with
  | none =>
    obtain ⟨-, ready⟩ := joined.ready x s here peer
    obtain ⟨m, none, -⟩ := (ready _ (.created unspecified)).2.message range calls
    cases none
  | some y =>
    obtain ⟨back, -, -⟩ := joined.paired x y peer
    obtain ⟨-, -, writer, there⟩ := joined.paired y x back
    obtain ⟨m, next, told⟩ := (joined.linked x y s writer peer here there).message range calls
    exact ⟨y, m, rfl, back, next, told⟩

/-- A new session, at a place that was free. -/
theorem Joined.begin (joined : c.Joined packetSize sent) (free : c.session x = none)
    (new : Lived packetSize [] s) :
    (c.put x s).Joined packetSize sent := by
  have unlinked {a b : E} (peer : c.peer a = some b) : a ≠ x := by
    rintro rfl
    obtain ⟨-, -, s', there⟩ := joined.paired a b peer
    rw [free] at there
    cases there
  refine ⟨fun a b peer => ?_, fun a b sa sb peer at_a at_b => ?_, fun a sa at_a alone => ?_, fun a none => ?_⟩
  · obtain ⟨back, other, sa, there⟩ := joined.paired a b peer
    exact ⟨back, other, sa, (Function.update_of_ne (unlinked peer) ..).trans there⟩
  · change Function.update c.session x (some s) a = some sa at at_a
    change Function.update c.session x (some s) b = some sb at at_b
    rw [Function.update_of_ne (unlinked peer)] at at_a
    rw [Function.update_of_ne (unlinked (joined.paired a b peer).1)] at at_b
    exact joined.linked a b sa sb peer at_a at_b
  · change Function.update c.session x (some s) a = some sa at at_a
    by_cases same : a = x
    · subst same
      rw [Function.update_self] at at_a
      obtain rfl := Option.some.inj at_a
      obtain ⟨untaken, unsent⟩ := joined.empty a free
      rw [unsent]
      exact ⟨untaken, fun f new' => ⟨.opened new new', .opened new' new⟩⟩
    · rw [Function.update_of_ne same] at at_a
      exact joined.ready a sa at_a alone
  · change Function.update c.session x (some s) a = Option.none at none
    by_cases same : a = x
    · rw [same, Function.update_self] at none
      cases none
    · rw [Function.update_of_ne same] at none
      exact joined.empty a none

/-- A session becomes the other end of one that has just begun. -/
theorem Joined.join (joined : c.Joined packetSize sent) (here : c.session x = some s)
    (alone : c.peer x = none) (there : c.session y = some s') (alone' : c.peer y = none)
    (new : Lived packetSize [] s') (unsent : sent y = []) (other : x ≠ y) :
    (c.link x y).Joined packetSize sent := by
  obtain ⟨untaken, ready⟩ := joined.ready x s here alone
  obtain ⟨untaken', -⟩ := joined.ready y s' there alone'
  obtain ⟨writes, reads⟩ := ready s' new
  have linked {a b : E} (peer : Function.update (Function.update c.peer x (some y)) y (some x) a = some b) :
      a = y ∧ b = x ∨ a = x ∧ b = y ∨ a ≠ x ∧ a ≠ y ∧ c.peer a = some b := by
    by_cases last : a = y
    · rw [last, Function.update_self] at peer
      exact .inl ⟨last, (Option.some.inj peer).symm⟩
    · rw [Function.update_of_ne last] at peer
      by_cases first : a = x
      · rw [first, Function.update_self] at peer
        exact .inr (.inl ⟨first, (Option.some.inj peer).symm⟩)
      · rw [Function.update_of_ne first] at peer
        exact .inr (.inr ⟨first, last, peer⟩)
  refine ⟨fun a b peer => ?_, fun a b sa sb peer at_a at_b => ?_, fun a sa at_a none => ?_, joined.empty⟩
  · rcases linked peer with ⟨rfl, rfl⟩ | ⟨rfl, rfl⟩ | ⟨notx, noty, peer⟩
    · exact ⟨(Function.update_of_ne other ..).trans (Function.update_self ..), other.symm, s', there⟩
    · exact ⟨Function.update_self .., other, s, here⟩
    · obtain ⟨back, ne, kept⟩ := joined.paired a b peer
      have bx : b ≠ x := by rintro rfl; rw [alone] at back; cases back
      have by' : b ≠ y := by rintro rfl; rw [alone'] at back; cases back
      exact ⟨((Function.update_of_ne by' ..).trans (Function.update_of_ne bx ..)).trans back, ne, kept⟩
  · rcases linked peer with ⟨rfl, rfl⟩ | ⟨rfl, rfl⟩ | ⟨notx, noty, peer⟩
    · obtain rfl := Option.some.inj (there.symm.trans at_a)
      obtain rfl := Option.some.inj (here.symm.trans at_b)
      show Linked packetSize (sent b) s s' (c.taken a)
      rw [untaken']
      exact writes
    · obtain rfl := Option.some.inj (here.symm.trans at_a)
      obtain rfl := Option.some.inj (there.symm.trans at_b)
      show Linked packetSize (sent b) s' s (c.taken a)
      rw [unsent, untaken]
      exact reads
    · exact joined.linked a b sa sb peer at_a at_b
  · refine joined.ready a sa at_a ?_
    change Function.update (Function.update c.peer x (some y)) y (some x) a = Option.none at none
    have noty : a ≠ y := by rintro rfl; rw [Function.update_self] at none; cases none
    rw [Function.update_of_ne noty] at none
    have notx : a ≠ x := by rintro rfl; rw [Function.update_self] at none; cases none
    rwa [Function.update_of_ne notx] at none

end Ends

end MiniDht
