import MiniDht.Session.Registry

/-!
# Broken sessions

A session one of whose chains has failed is of no more use, but the registry loses it only
when it is deleted, and it is deleted with its last reference. Until the other chain fails
as well it is handed messages that nothing will write.
-/

namespace MiniDht

namespace Arrival

/-- What an arrival is to the session it is for. -/
def event : Arrival → Option (Nat × Session.Event)
  | .accepted _ _ => none
  | .sent _ _ _ => none
  | .connected i error => some (i, .connected error)
  | .header i bytes attached => some (i, .header bytes attached)
  | .body i bytes => some (i, .body bytes)
  | .handled i threw => some (i, .handled threw)
  | .written i error => some (i, .written error)

theorem session_event (a : Arrival) : a.session = a.event.map Prod.fst := by
  cases a with
  | accepted => rfl
  | sent => rfl
  | connected => rfl
  | header => rfl
  | body => rfl
  | handled => rfl
  | written => rfl

theorem fails_event {packetSize : Nat} {a : Arrival} {i : Nat} {e : Session.Event}
    (same : a.event = some (i, e)) (s : Session) :
    a.Fails packetSize s ↔ e.FailsRead packetSize s ∨ e.FailsWrite := by
  cases a with
  | accepted => cases same
  | sent => cases same
  | connected => cases same; exact (or_iff_left id).symm
  | header => cases same; exact (or_iff_left id).symm
  | body => cases same; exact (or_iff_left id).symm
  | handled => cases same; exact (or_iff_left id).symm
  | written => cases same; exact (or_iff_right id).symm

end Arrival

namespace Registry

variable {packetSize : Nat} {r r' : Registry} {a : Arrival} {i j : Nat} {s s' : Session}

/-! ## The registry's handlers are the session's -/

theorem release_sessions (r : Registry) (i : Nat) (s : Session) :
    (r.release i s).sessions = r.sessions.set i s.release := by
  rw [release, Session.release]
  by_cases last : s.drop.refCount ≤ 0
  · simp only [if_pos last]
  · simp only [if_neg last, put]

theorem enter_sessions (r : Registry) (i : Nat) (key : EndpointProto) :
    (r.enter i key).sessions = r.sessions := by
  rw [enter]
  split
  · rfl
  · split <;> rfl

theorem handleConnect_sessions (r : Registry) (i : Nat) (s : Session) (error : Bool) :
    (r.handleConnect i s error).sessions = r.sessions.set i (s.handleConnect error) := by
  cases error with
  | true => exact release_sessions r i s.drop
  | false => rfl

theorem handleReadHeader_sessions (r : Registry) (i : Nat) (s : Session)
    (bytes : Session.HeaderBytes) (attached : Bool) :
    (handleReadHeader packetSize r i s bytes attached).sessions =
      r.sessions.set i (Session.handleReadHeader packetSize s bytes attached) := by
  rw [handleReadHeader, Session.handleReadHeader]
  cases s.drop.headerRead packetSize bytes attached with
  | error s => exact release_sessions r i s.disconnected
  | ok s => exact enter_sessions _ _ _

theorem handleReadBody_sessions (r : Registry) (i : Nat) (s : Session) (bytes : Option (List UInt8)) :
    (r.handleReadBody i s bytes).sessions = r.sessions.set i (s.handleReadBody bytes) := by
  cases bytes with
  | none => exact release_sessions r i s.drop
  | some bytes => rfl

theorem handleWrite_sessions (r : Registry) (i : Nat) (s : Session) (error : Bool) :
    (r.handleWrite i s error).sessions = r.sessions.set i (s.handleWrite error) := by
  cases error with
  | true => exact release_sessions r i s.drop
  | false => rfl

/-- A completion is the step of its session, and of no other. -/
theorem step_event {e : Session.Event} (stepped : r.step packetSize a = some r')
    (same : a.event = some (i, e)) :
    ∃ s s', r.sessions[i]? = some s ∧ s.step packetSize e = some s' ∧
      r'.sessions = r.sessions.set i s' := by
  have complete {s : Session} {op : Op} (out : op ∈ s.pending) :
      s.completes op = some { s with pending := s.pending.erase op } := if_pos out
  cases a with
  | accepted => cases same
  | sent => cases same
  | connected i error =>
    cases same
    obtain ⟨s, here, out, ends⟩ := of_completes stepped
    cases ends
    refine ⟨s, _, here, ?_, handleConnect_sessions _ _ _ _⟩
    rw [Session.step, complete out]
    rfl
  | header i bytes attached =>
    cases same
    obtain ⟨s, here, out, ends⟩ := of_completes stepped
    cases ends
    refine ⟨s, _, here, ?_, handleReadHeader_sessions _ _ _ _ _⟩
    rw [Session.step, complete out]
    rfl
  | body i bytes =>
    cases same
    obtain ⟨s, here, out, ends⟩ := of_completes stepped
    obtain ⟨fits, guarded, ends⟩ := Option.bind_eq_some_iff.mp ends
    cases ends
    refine ⟨s, _, here, ?_, handleReadBody_sessions _ _ _ _⟩
    rw [Session.step, complete out, Option.bind_eq_bind, Option.bind_some]
    exact Option.bind_eq_some_iff.mpr ⟨fits, guarded, rfl⟩
  | handled i threw =>
    cases same
    obtain ⟨s, here, out, ends⟩ := of_completes stepped
    cases ends
    refine ⟨s, _, here, ?_, rfl⟩
    rw [Session.step, complete out]
    rfl
  | written i error =>
    cases same
    obtain ⟨s, here, out, ends⟩ := of_completes stepped
    cases ends
    refine ⟨s, _, here, ?_, handleWrite_sessions _ _ _ _⟩
    rw [Session.step, complete out]
    rfl

/-- Where a session comes from in a step. -/
inductive Came (packetSize : Nat) (r : Registry) (a : Arrival) (j : Nat) (s' : Session) : Prop where
  | kept (here : r.sessions[j]? = some s') (other : a.session ≠ some j)
  | delivered (s : Session) (msg : BasicMessage) (here : r.sessions[j]? = some s)
      (idle : a.session = none) (delivers : s' = s.deliver msg)
  | completed (s : Session) (e : Session.Event) (here : r.sessions[j]? = some s)
      (same : a.event = some (j, e)) (stepped : s.step packetSize e = some s')
  | begun (fresh : r.sessions[j]? = none) (idle : a.session = none) (past : List (Session × Session.Event))
      (lived : Session.Lived packetSize past s')
      (works : ∀ step ∈ past, ¬ (step.2.FailsRead packetSize step.1 ∨ step.2.FailsWrite))

theorem came_append {s : Session} (idle : a.session = none) {past : List (Session × Session.Event)}
    (lived : Session.Lived packetSize past s)
    (works : ∀ step ∈ past, ¬ (step.2.FailsRead packetSize step.1 ∨ step.2.FailsWrite))
    (there : (r.sessions ++ [s])[j]? = some s') : Came packetSize r a j s' := by
  by_cases old : j < r.sessions.length
  · rw [List.getElem?_append_left old] at there
    exact .kept there (by rw [idle]; simp)
  · have fresh : r.sessions.length ≤ j := Nat.le_of_not_lt old
    rw [List.getElem?_append_right fresh, List.getElem?_singleton] at there
    obtain ⟨-, here⟩ := Option.ite_none_right_eq_some.mp there
    obtain rfl : s = s' := Option.some.inj here
    exact .begun (List.getElem?_eq_none fresh) idle past lived works

theorem came_event {e : Session.Event} (stepped : r.step packetSize a = some r')
    (same : a.event = some (i, e)) (there : r'.sessions[j]? = some s') :
    Came packetSize r a j s' := by
  obtain ⟨s, s₁, here, advanced, sessions⟩ := step_event stepped same
  rw [sessions, List.getElem?_set] at there
  split at there
  next is =>
    subst is
    obtain ⟨-, ends⟩ := Option.ite_none_right_eq_some.mp there
    exact .completed s e here same (advanced.trans ends)
  next other => exact .kept there (by rw [a.session_event, same]; simpa using other)

theorem step_came (stepped : r.step packetSize a = some r') (there : r'.sessions[j]? = some s') :
    Came packetSize r a j s' := by
  cases a with
  | accepted remote attached =>
    cases stepped
    cases attached with
    | true => exact came_append rfl (.accepted remote) (by simp) there
    | false => exact came_append rfl (.created remote) (by simp) there
  | sent uep listenPort bytes =>
    cases stepped
    rw [sendMessage] at there
    split at there
    · have lived : Session.Lived packetSize _ _ :=
        (Session.Lived.connecting uep uep).step (e := .deliver (.frame packetSize listenPort bytes)) rfl
      exact came_append rfl lived (by simp [Session.Event.FailsRead, Session.Event.FailsWrite]) there
    next i entry =>
      split at there
      · exact .kept there (by simp [Arrival.session])
      next s here =>
        rw [put, List.getElem?_set] at there
        split at there
        next is =>
          subst is
          obtain ⟨-, ends⟩ := Option.ite_none_right_eq_some.mp there
          exact .delivered s _ here rfl (Option.some.inj ends).symm
        next => exact .kept there (by simp [Arrival.session])
  | connected i error => exact came_event stepped rfl there
  | header i bytes attached => exact came_event stepped rfl there
  | body i bytes => exact came_event stepped rfl there
  | handled i threw => exact came_event stepped rfl there
  | written i error => exact came_event stepped rfl there

/-- Sessions are never taken off the list. -/
theorem step_kept (stepped : r.step packetSize a = some r') (here : r.sessions[j]? = some s) :
    ∃ s', r'.sessions[j]? = some s' := by
  have known : r.deletedAt j = some s.deleted := deletedAt_self here
  have still : ∃ b, r'.deletedAt j = some b := by
    cases step_effect stepped with
    | ended i s own here fails last ended =>
      by_cases same : j = i
      · exact ⟨true, same ▸ ended.gone⟩
      · exact ⟨_, (ended.others j same).trans known⟩
    | entered i s key own here enters entered => exact ⟨_, (entered.kept j).trans known⟩
    | quiet quiet idle => exact ⟨_, quiet.kept j _ known⟩
  obtain ⟨b, still⟩ := still
  obtain ⟨s', there, -⟩ := Option.map_eq_some_iff.mp still
  exact ⟨s', there⟩

/-! ## Chains that have failed -/

/-- An operation of the session has failed before. -/
def Broken (packetSize : Nat) (steps : List (Registry × Arrival)) (i : Nat) : Prop :=
  ∃ step ∈ steps, step.2.session = some i ∧
    ∃ s, step.1.sessions[i]? = some s ∧ step.2.Fails packetSize s

theorem broken_append {steps : List (Registry × Arrival)} :
    Broken packetSize (steps ++ [(r, a)]) i ↔ Broken packetSize steps i ∨
      a.session = some i ∧ ∃ s, r.sessions[i]? = some s ∧ a.Fails packetSize s := by
  simp [Broken, or_and_right, exists_or]

/-- A completion breaks its session if it fails. -/
theorem broken_own {steps : List (Registry × Arrival)} (own : a.session = some i)
    (here : r.sessions[i]? = some s) : Broken packetSize (steps ++ [(r, a)]) i ↔
      Broken packetSize steps i ∨ a.Fails packetSize s := by
  rw [broken_append, and_iff_right own]
  simp [here]

theorem broken_other {steps : List (Registry × Arrival)}
    (works : a.session = some i → ∀ s, r.sessions[i]? = some s → ¬ a.Fails packetSize s) :
    Broken packetSize (steps ++ [(r, a)]) i ↔ Broken packetSize steps i := by
  rw [broken_append]
  exact or_iff_left fun ⟨own, s, here, fails⟩ => works own s here fails

theorem broken_known {steps : List (Registry × Arrival)} (ran : Ran packetSize steps r)
    (broken : Broken packetSize steps i) : ∃ s, r.sessions[i]? = some s := by
  induction ran with
  | start =>
    obtain ⟨step, mem, -⟩ := broken
    cases mem
  | @step steps r r' a ran stepped ih =>
    rcases broken_append.mp broken with before | ⟨-, s, here, -⟩
    · obtain ⟨s, here⟩ := ih before
      exact step_kept stepped here
    · exact step_kept stepped here

/-- The life of one of the sessions. -/
theorem ran_lived {steps : List (Registry × Arrival)} (ran : Ran packetSize steps r)
    (here : r.sessions[i]? = some s) : ∃ past, Session.Lived packetSize past s ∧
      (Broken packetSize steps i ↔
        ∃ step ∈ past, step.2.FailsRead packetSize step.1 ∨ step.2.FailsWrite) := by
  induction ran generalizing s with
  | start => cases here
  | @step steps r r' a ran stepped ih =>
    cases step_came stepped here with
    | kept was other =>
      obtain ⟨past, lived, same⟩ := ih was
      refine ⟨past, lived, ?_⟩
      rw [broken_append, ← same]
      exact or_iff_left fun now => other now.1
    | delivered s msg was idle delivers =>
      subst delivers
      obtain ⟨past, lived, same⟩ := ih was
      refine ⟨_, lived.step (e := .deliver msg) rfl, ?_⟩
      rw [broken_append, same, idle]
      simp [or_and_right, exists_or, Session.Event.FailsRead, Session.Event.FailsWrite]
    | completed s e was same stepped =>
      obtain ⟨past, lived, before⟩ := ih was
      refine ⟨_, lived.step stepped, ?_⟩
      have own : a.session = some i := by rw [a.session_event, same, Option.map_some]
      have now : (∃ s, r.sessions[i]? = some s ∧ a.Fails packetSize s) ↔
          e.FailsRead packetSize s ∨ e.FailsWrite := by
        simp [was, Arrival.fails_event same]
      rw [broken_append, before, and_iff_right own, now]
      simp only [List.mem_append, List.mem_singleton, or_and_right, exists_or, exists_eq_left]
    | begun fresh idle past lived works =>
      refine ⟨past, lived, iff_of_false ?_ ?_⟩
      · rw [broken_append, idle]
        rintro (before | ⟨own, -⟩)
        · obtain ⟨s, was⟩ := broken_known ran before
          rw [fresh] at was
          cases was
        · cases own
      · rintro ⟨step, mem, fails⟩
        exact works step mem fails

/-- A registered session works, and what is handed to it is written, or waits for a write
that is outstanding. -/
def Sendable (packetSize : Nat) (steps : List (Registry × Arrival)) (r : Registry) : Prop :=
  ∀ key i, r.mapEpProtoSession key = some i → ¬ Broken packetSize steps i ∧
    ∀ s, r.sessions[i]? = some s → ∀ msg, .write ∈ (s.deliver msg).pending

/-- A completion that fails finds its session under no endpoint but its present one, and
takes the last references to it. A header is not read for a session whose messages are
stuck. -/
def Unhooks (packetSize : Nat) (r : Registry) (a : Arrival) : Prop :=
  ∀ i s, a.session = some i → r.sessions[i]? = some s →
    (a.Fails packetSize s → ∀ key, r.mapEpProtoSession key = some i →
      key = s.ep.proto ∧ s.refCount ≤ 2) ∧
    (a.Enters packetSize s → s.writeMsgs = [] ∨ .write ∈ s.pending)

/-- The session a header is read for was waiting for it. -/
theorem enters_reading (stepped : r.step packetSize a = some r') (own : a.session = some i)
    (here : r.sessions[i]? = some s) (enters : a.Enters packetSize s) : .readHeader ∈ s.pending := by
  cases a with
  | header i' bytes attached =>
    obtain ⟨s₀, there, out, -⟩ := of_completes stepped
    obtain rfl : i' = i := Option.some.inj own
    obtain rfl : s₀ = s := Option.some.inj (there.symm.trans here)
    exact out
  | accepted => exact enters.elim
  | sent => exact enters.elim
  | connected => exact enters.elim
  | body => exact enters.elim
  | handled => exact enters.elim
  | written => exact enters.elim

section Run

variable {steps : List (Registry × Arrival)} (ran : Ran packetSize steps r)
include ran

/-- A header is read for a broken session where its messages are stuck. -/
theorem broken_iff_stuck (here : r.sessions[i]? = some s) (reading : .readHeader ∈ s.pending) :
    Broken packetSize steps i ↔ ¬ (s.writeMsgs = [] ∨ .write ∈ s.pending) := by
  obtain ⟨past, lived, same⟩ := ran_lived ran here
  rw [same, lived.stuck_iff reading]

/-- Nothing but a failed chain keeps a message from being written. -/
theorem sendable_iff_works : Sendable packetSize steps r ↔
    ∀ key i, r.mapEpProtoSession key = some i → ¬ Broken packetSize steps i := by
  constructor
  · exact fun sendable key i entry => (sendable key i entry).1
  · intro works key i entry
    refine ⟨works key i entry, fun s here msg => ?_⟩
    obtain ⟨past, lived, same⟩ := ran_lived ran here
    have healthy : ¬ ∃ step ∈ past, step.2.FailsWrite := fun ⟨step, mem, fails⟩ =>
      works key i entry (same.mpr ⟨step, mem, .inr fails⟩)
    exact lived.deliver_write healthy msg

end Run

section Works

variable {steps : List (Registry × Arrival)} (own : a.session = some i)
  (here : r.sessions[i]? = some s)
  (before : ∀ key j, r.mapEpProtoSession key = some j → ¬ Broken packetSize steps j)
include own here before

theorem Ended.works_iff (ended : r.Ended i s.ep.proto r') (fails : a.Fails packetSize s) :
    (∀ key j, r'.mapEpProtoSession key = some j → ¬ Broken packetSize (steps ++ [(r, a)]) j) ↔
      ∀ key, r.mapEpProtoSession key = some i → key = s.ep.proto := by
  rw [ended.map, entries_erase]
  constructor
  · intro after key entry
    by_contra other
    exact after key i other entry ((broken_own own here).mpr (.inr fails))
  · intro only key j other entry
    have apart : i ≠ j := fun same => other (only key (same ▸ entry))
    rw [broken_other fun own' => absurd (Option.some.inj (own.symm.trans own')) apart]
    exact before key j entry

theorem Entered.works_iff {key : EndpointProto} (entered : r.Entered i key r')
    (succeeds : ¬ a.Fails packetSize s) :
    (∀ key j, r'.mapEpProtoSession key = some j → ¬ Broken packetSize (steps ++ [(r, a)]) j) ↔
      ¬ Broken packetSize steps i := by
  have same (j : Nat) : Broken packetSize (steps ++ [(r, a)]) j ↔ Broken packetSize steps j := by
    have all : ∀ j s, a.session = some j → r.sessions[j]? = some s → ¬ a.Fails packetSize s :=
      (forall_own own here).mpr succeeds
    exact broken_other fun own s here => all j s own here
  simp only [same]
  rw [entered.map, entries_enter]
  exact and_iff_left fun key' j _ entry => before key' j entry

end Works

section Run

variable {steps : List (Registry × Arrival)} (ran : Ran packetSize steps r)
include ran

theorem sendable_step (stepped : r.step packetSize a = some r') (before : Sendable packetSize steps r) :
    Sendable packetSize (steps ++ [(r, a)]) r' ↔ Unhooks packetSize r a := by
  rw [sendable_iff_works ran] at before
  rw [sendable_iff_works (ran.step stepped)]
  cases step_effect stepped with
  | ended i s own here fails last ended =>
    rw [ended.works_iff own here before fails, Unhooks, forall_own own here]
    constructor
    · intro only
      exact ⟨fun _ key entry => ⟨only key entry, last⟩,
        fun enters => absurd enters (Arrival.not_enters fails)⟩
    · exact fun unhooks key entry => (unhooks.1 fails key entry).1
  | entered i s key own here enters entered =>
    have succeeds : ¬ a.Fails packetSize s := fun fails => absurd enters (Arrival.not_enters fails)
    have stuck := broken_iff_stuck ran here (enters_reading stepped own here enters)
    rw [entered.works_iff own here before succeeds, stuck, not_not, Unhooks, forall_own own here]
    constructor
    · exact fun flows => ⟨fun fails => absurd fails succeeds, fun _ => flows⟩
    · exact fun unhooks => unhooks.2 enters
  | quiet quiet idle =>
    rw [quiet.map]
    constructor
    · intro after i s own here
      refine ⟨fun fails key entry => ?_, fun enters => absurd enters (idle i s own here).2⟩
      exact absurd ((broken_own own here).mpr (.inr fails)) (after key i entry)
    · intro unhooks key j entry
      rw [broken_other fun own s here fails => ?_]
      · exact before key j entry
      · have more := (idle j s own here).1 fails
        have last := ((unhooks j s own here).1 fails key entry).2
        omega

end Run

theorem forall_getElem?_concat {α : Type} {xs : List α} {x : α} {P : Nat → α → Prop} :
    (∀ n y, (xs ++ [x])[n]? = some y → P n y) ↔ (∀ n y, xs[n]? = some y → P n y) ∧ P xs.length x := by
  constructor
  · intro all
    refine ⟨fun n y here => all n y ?_, all _ x List.getElem?_concat_length⟩
    rw [List.getElem?_append_left (List.getElem?_eq_some_iff.mp here).1, here]
  · rintro ⟨before, last⟩ n y here
    rw [List.getElem?_append] at here
    split at here
    · exact before n y here
    next beyond =>
      rw [List.getElem?_singleton] at here
      obtain ⟨first, same⟩ := Option.ite_none_right_eq_some.mp here
      obtain rfl : n = xs.length := by omega
      exact Option.some.inj same ▸ last

/-- **Broken sessions.** In a run the sessions that are registered can be sent to, at all
times, if and only if every arrival that breaks one unhooks it. -/
theorem sendable_iff {steps : List (Registry × Arrival)} (ran : Ran packetSize steps r) :
    (∀ n r', (steps.map Prod.fst ++ [r])[n]? = some r' → Sendable packetSize (steps.take n) r') ↔
      ∀ step ∈ steps, Unhooks packetSize step.1 step.2 := by
  induction ran with
  | start =>
    have empty : Sendable packetSize [] {} := fun key i entry => by cases entry
    rw [forall_getElem?_concat]
    simpa using empty
  | @step steps r r' a ran stepped ih =>
    have earlier : (∀ n r'', (steps.map Prod.fst ++ [r])[n]? = some r'' →
        Sendable packetSize ((steps ++ [(r, a)]).take n) r'') ↔
        ∀ n r'', (steps.map Prod.fst ++ [r])[n]? = some r'' → Sendable packetSize (steps.take n) r'' := by
      refine forall_congr' fun n => forall_congr' fun r'' => imp_congr_right fun here => ?_
      have inside : n < steps.length + 1 := by
        simpa using (List.getElem?_eq_some_iff.mp here).1
      rw [List.take_append_of_le_length (by omega)]
    rw [List.map_append, List.map_cons, List.map_nil, forall_getElem?_concat, earlier, ih,
      List.forall_mem_append, List.forall_mem_singleton]
    have all : (steps ++ [(r, a)]).take (steps.map Prod.fst ++ [r]).length = steps ++ [(r, a)] := by
      rw [List.take_of_length_le]
      simp
    rw [all]
    refine and_congr_right fun unhooks => ?_
    have now : Sendable packetSize steps r := by
      have last := ih.mpr unhooks steps.length r (by simp)
      rwa [List.take_length] at last
    exact sendable_step ran stepped now

/-- A message is written to the peer that has greeted, which is gone then. -/
def leaves : List Arrival :=
  greets ++ [.sent { address := "10.0.0.1", port := 1, printed := by simp } 1 [], .written 0 false,
    .header 0 none true]

/-- The theorem at a run whose one session is sent to, fails and is deleted. -/
theorem sendable_iff_leaves : ∃ (steps : List (Registry × Arrival)) (r : Registry),
    steps.map Prod.snd = leaves ∧ r.mapEpProtoSession { address := "10.0.0.1", port := "1" } = none ∧
      r.deletedAt 0 = some true ∧
      ((∀ n r', (steps.map Prod.fst ++ [r])[n]? = some r' →
          Sendable (1024 * 1024) (steps.take n) r') ↔
        ∀ step ∈ steps, Unhooks (1024 * 1024) step.1 step.2) := by
  have left : ((runAll (1024 * 1024) {} leaves).map fun r => (r.mapEpProtoSession
      { address := "10.0.0.1", port := "1" }, r.deletedAt 0)) = some (none, some true) := by decide
  obtain ⟨r, run, both⟩ := Option.map_eq_some_iff.mp left
  obtain ⟨entry, gone⟩ := Prod.mk.inj both
  obtain ⟨steps, ran, arrivals⟩ := exists_ran .start run
  exact ⟨steps, r, arrivals, entry, gone, sendable_iff ran⟩

/-! ### A write that fails while a header is outstanding -/

/-- A message is sent to the peer that has greeted, and the write fails. -/
def fails : List Arrival :=
  greets ++ [.sent { address := "10.0.0.1", port := 1, printed := by simp } 1 [], .written 0 true]

/-- The session stays registered, and what is handed to it next is not written. -/
theorem unsendable : ∃ steps r, Ran (1024 * 1024) steps r ∧ steps.map Prod.snd = fails ∧
    ¬ Sendable (1024 * 1024) steps r := by
  let first : EndpointProto := { address := "10.0.0.1", port := "1" }
  have left : ((runAll (1024 * 1024) {} fails).map fun r => (r.mapEpProtoSession first,
      (r.sessions[0]?.map fun s => (s.deliver {}).pending))) = some (some 0, some [.readHeader]) := by
    decide
  obtain ⟨r, run, both⟩ := Option.map_eq_some_iff.mp left
  obtain ⟨entry, stuck⟩ := Prod.mk.inj both
  obtain ⟨s, here, pending⟩ := Option.map_eq_some_iff.mp stuck
  obtain ⟨steps, ran, arrivals⟩ := exists_ran .start run
  refine ⟨steps, r, ran, arrivals, fun sendable => ?_⟩
  have writes := (sendable first 0 entry).2 s here {}
  rw [pending] at writes
  simp at writes

end Registry

end MiniDht
