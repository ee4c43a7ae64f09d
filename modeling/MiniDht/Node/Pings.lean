import MiniDht.Node.Meeting

/-!
# Pings and their answers

`map_ping_ttl` has the time at which the last ping went out under a token, until an answer
with the token is handled. The history of a run says which ping that was. The time-out is
tested the wrong way round, so an answer counts however late it comes, and a ping counts
that could not be sent.
-/

namespace MiniDht

open Lib

/-- A world in which the answer to a ping under the token 7 may come, and the clock is at 0
when it is first read and at `later` from then on. -/
def World.answering (later : Ptime) : World :=
  { World.simple [{ type := .replyPing, fromId := peerA.key, token := 7 }] with
    clock := fun i => if i = 0 then 0 else later }

namespace Node

variable {w : World} {s s' s₁ : Node} {t : Token} {m : MessageProto} {toId : String}
  {epp : EndpointProto}

/-- It was seen that a ping with the token was handed to `send_MESSAGE(m, epp)`. -/
def handedPing (t : Token) (es : List Event) : Bool :=
  es.any fun
    | .handed m _ => m.type = .sendPing ∧ m.token = t
    | _ => false

/-- What bears on answers to pings. -/
inductive Mark where
  /-- `send_PING_nolock` notes the time under the token; the ping may then be handed over. -/
  | pinged (t : Token) (time : Ptime) (handed : Bool)
  /-- A `REPLY_PING` with the token is handled. -/
  | answered (t : Token)
  deriving DecidableEq

/-- The marks a node leaves on its way from `s`, in order. -/
inductive Trace (w : World) (s : Node) : List Mark → Node → Prop where
  | start : Trace w s [] s
  | quiet {tr : List Mark} {s₁ s₂ : Node} {es : List Event} (trace : Trace w s tr s₁)
      (pings : s₂.mapPingTtl = s₁.mapPingTtl) (later : s₁.ticks ≤ s₂.ticks)
      (log : s₂.log = s₁.log ++ es) (others : ∀ e ∈ es, e.message.type ≠ .sendPing) :
      Trace w s tr s₂
  | ping {tr : List Mark} {s₁ : Node} {toId : String} {t : Token} (trace : Trace w s tr s₁)
      (nonzero : toId ≠ zeroId) :
      Trace w s
        (tr ++ [.pinged t (w.clock s₁.ticks)
          (handedPing t (s₁.since (Act.exec (sendPing w toId t) s₁).2))])
        (Act.exec (sendPing w toId t) s₁).2
  | pingTo {tr : List Mark} {s₁ : Node} {epp : EndpointProto} {t : Token}
      (trace : Trace w s tr s₁) (named : epp.Named) :
      Trace w s
        (tr ++ [.pinged t (w.clock s₁.ticks)
          (handedPing t (s₁.since (Act.exec (sendPingTo w epp t) s₁).2))])
        (Act.exec (sendPingTo w epp t) s₁).2
  | answer {tr : List Mark} {s₁ : Node} (trace : Trace w s tr s₁) (t : Token) :
      Trace w s (tr ++ [.answered t])
        { s₁ with mapPingTtl := Function.update s₁.mapPingTtl t none }

/-! ## What sending does to a node -/

/-- The node `s` after more has been seen of the message. -/
def Told (s : Node) (m : MessageProto) (s' : Node) : Prop :=
  ∃ es, s' = s.logged es ∧ ∀ e ∈ es, e.message = m

theorem Told.refl (s : Node) (m : MessageProto) : Told s m s := ⟨[], by simp, by simp⟩

theorem told_record {e : Event} (about : e.message = m) : Act.Keeps (Told s m) (record e) := by
  rintro s' ⟨es, rfl, only⟩
  refine ⟨es ++ [e], by simp, fun e' seen => ?_⟩
  rcases List.mem_append.mp seen with old | new
  · exact only e' old
  · rw [List.mem_singleton.mp new]
    exact about

theorem told_sendMessageTo : Act.Keeps (Told s m) (sendMessageTo w m epp) := by
  refine .bind (told_record rfl) fun _ => .bind (.ofExcept _) fun _ => ?_
  split
  · exact .pure _
  · exact .bind (.ofExcept _) fun _ => .ite (told_record rfl) (told_record rfl)

theorem told_sendMessage : Act.Keeps (Told s m) (sendMessage w m) := by
  refine .bind (told_record rfl) fun _ => .bind (.ofExcept _) fun _ => .bind .get fun s' => ?_
  refine .ite (.pure _) ?_
  split
  · exact .throw _
  · exact told_sendMessageTo

/-- A ping notes the time, and then sends. -/
theorem sendPing_told (nonzero : toId ≠ zeroId) :
    Told (pinged w s t) (pingMessage s.id toId t) (Act.exec (sendPing w toId t) s).2 := by
  rw [sendPing, exec_checked nonzero, exec_catch_bind (Act.exec_get s),
    exec_catch_bind (exec_notePing s), Act.exec_catchStd_state]
  exact told_sendMessage _ (.refl _ _)

theorem sendPingTo_told (named : epp.Named) :
    Told (pinged w s t) { type := .sendPing, fromId := s.id, token := t }
      (Act.exec (sendPingTo w epp t) s).2 := by
  rw [sendPingTo, assertNamed_named named, Act.exec_bind_ok (Act.exec_ofExcept _ _),
    exec_catch_bind (Act.exec_get s), exec_catch_bind (exec_notePing s), Act.exec_catchStd_state]
  exact told_sendMessageTo _ (.refl _ _)

theorem sendStore_told {queryId : String} {cbf : DataItemProto} (nonzero : toId ≠ zeroId) :
    Told (s.noted t cbf) (storeMessage s.id toId queryId cbf t)
      (Act.exec (sendStore w toId queryId cbf t) s).2 := by
  rw [sendStore, exec_checked nonzero, exec_catch_bind (Act.exec_get s),
    exec_catch_bind (Act.exec_modify _ _), Act.exec_catchStd_state]
  exact told_sendMessage _ (.refl _ _)

theorem exec_sendPingTo (named : epp.Named) :
    Act.exec (sendPingTo w epp t) s =
      (.ok (), (pinged w s t).logged
        (handOver w { type := .sendPing, fromId := s.id, token := t } epp)) := by
  rw [sendPingTo, assertNamed_named named, Act.exec_bind_ok (Act.exec_ofExcept _ _),
    exec_catch_bind (Act.exec_get s), exec_catch_bind (exec_notePing s), Act.exec_catchStd,
    exec_sendMessageTo named]

theorem since_pinged (s : Node) (t : Token) (es : List Event) :
    s.since ((pinged w s t).logged es) = es := since_of_log rfl

/-- A ping to an endpoint goes out. -/
theorem handedPing_sendPingTo (named : epp.Named) :
    handedPing t (s.since (Act.exec (sendPingTo w epp t) s).2) = true := by
  rw [exec_sendPingTo named, since_pinged]
  simp [handOver, handedPing]

/-- A ping to a key goes out if the key is another node's, and among the contacts. -/
theorem handedPing_sendPing (nonzero : toId ≠ zeroId) (named : s.contactList.Named) :
    handedPing t (s.since (Act.exec (sendPing w toId t) s).2) = true ↔
      toId ≠ s.id ∧ (s.contactList.lookup toId).isSome := by
  rw [exec_sendPing nonzero named, since_pinged]
  unfold sendEvents
  by_cases self : toId = s.id
  · simp [pingMessage, self, handedPing]
  · cases found : s.contactList.lookup toId with
    | none => simp [pingMessage, self, found, handedPing]
    | some c => simp [pingMessage, self, found, handedPing, handOver]

/-! ## Every input leaves marks -/

theorem Trace.still {tr : List Mark} (trace : Trace w s tr s₁)
    (pings : s'.mapPingTtl = s₁.mapPingTtl) (later : s₁.ticks ≤ s'.ticks) (log : s'.log = s₁.log) :
    Trace w s tr s' :=
  @Trace.quiet w s tr s₁ s' [] trace pings later (by rw [log, List.append_nil]) (by simp)

theorem Trace.allows (w : World) (s : Node) :
    Allows w (fun s' => ∃ tr, Trace w s tr s') (fun m => m.type ≠ .sendPing) fun _ _ => True where
  tick := fun s' ⟨tr, trace⟩ => ⟨tr, trace.still rfl (Nat.le_succ _) rfl⟩
  draw := fun s' n ⟨tr, trace⟩ => ⟨tr, trace.still rfl le_rfl rfl⟩
  log := fun s' e ⟨tr, trace⟩ other =>
    ⟨tr, @Trace.quiet w s tr s' _ [e] trace rfl le_rfl rfl (by simpa using other)⟩
  own := fun _ _ _ _ _ other => other
  sendPing := by
    rintro toId t s' ⟨tr, trace⟩
    by_cases zero : toId = zeroId
    · rw [sendPing, exec_checked_zero zero]
      exact ⟨tr, trace⟩
    · exact ⟨_, trace.ping zero⟩
  sendPingTo := by
    rintro epp t s' ⟨tr, trace⟩
    by_cases named : epp.Named
    · exact ⟨_, trace.pingTo named⟩
    · rw [sendPingTo, Search.assertNamed_error named, Act.exec_bind_error (Act.exec_ofExcept _ _)]
      exact ⟨tr, trace⟩
  sendStore := by
    rintro toId queryId cbf t s' ⟨tr, trace⟩
    by_cases zero : toId = zeroId
    · rw [sendStore, exec_checked_zero zero]
      exact ⟨tr, trace⟩
    · obtain ⟨es, after, only⟩ := @sendStore_told w s' t toId queryId cbf zero
      rw [after]
      refine ⟨tr, @Trace.quiet w s tr s' _ es trace rfl le_rfl rfl fun e seen => ?_⟩
      rw [only e seen]
      simp [storeMessage]
  answered := fun s' t ⟨tr, trace⟩ => ⟨_, trace.answer t⟩
  stored := fun s' t ⟨tr, trace⟩ => ⟨tr, trace.still rfl le_rfl rfl⟩
  backup := fun s' c ⟨tr, trace⟩ => ⟨tr, trace.still rfl le_rfl rfl⟩
  search := fun s' t q ⟨tr, trace⟩ _ => ⟨tr, trace.still rfl le_rfl rfl⟩
  done := fun s' t ⟨tr, trace⟩ => ⟨tr, trace.still rfl le_rfl rfl⟩
  held := fun _ _ _ _ _ _ _ => trivial
  add := fun s' _ _ _ _ _ b ⟨tr, trace⟩ _ _ => ⟨tr, trace.still rfl le_rfl rfl⟩
  drop := fun s' pos ⟨tr, trace⟩ => ⟨tr, trace.still rfl le_rfl rfl⟩
  look := fun s' k ⟨tr, trace⟩ => ⟨tr, trace.still rfl le_rfl rfl⟩
  listed := fun _ _ _ _ => trivial

theorem exists_trace (w : World) (s : Node) (input : Input) :
    ∃ tr, Trace w s tr (Act.exec (input.run w) s).2 := by
  refine (Trace.allows w s).run ?_ ?_ ?_ ?_ s ⟨[], .start⟩
  · exact fun s' c ⟨tr, trace⟩ => ⟨tr, trace.still rfl le_rfl rfl⟩
  · exact fun s' ep ⟨tr, trace⟩ => ⟨tr, trace.still rfl le_rfl rfl⟩
  · exact fun s' n ⟨tr, trace⟩ => ⟨tr, trace.still rfl le_rfl rfl⟩
  · cases input <;> simp [Input.Tells, Node.Tells]

theorem exists_trace_start (w : World) (s : Node) :
    ∃ tr, Trace w s tr (Act.exec (restoreFromBackup w) s).2 := by
  have rule := Trace.allows w s
  have kept : Act.Keeps (fun s' => ∃ tr, Trace w s tr s') (restoreFromBackup w) :=
    .bind (rule.onBackup _) fun _ => rule.pingBackup _
  exact kept s ⟨[], .start⟩

/-! ## What a history says -/

/-- The time at which the ping of a mark was noted. -/
def Mark.time : Mark → Option Ptime
  | .pinged _ time _ => some time
  | .answered _ => none

/-- Under each token: whether an answer is waited for, and when the last ping went out. -/
abbrev Waits := Token → Option (Option Ptime)

def Waits.mark (n : Waits) : Mark → Waits
  | .pinged t time true => Function.update n t (some (some time))
  | .pinged t _ false => Function.update n t (some (n t).join)
  | .answered t => Function.update n t none

/-- What is waited for after some marks. -/
def waits (tr : List Mark) : Waits := tr.foldl Waits.mark fun _ => none

theorem waits_concat (tr : List Mark) (mark : Mark) : waits (tr ++ [mark]) = (waits tr).mark mark := by
  simp [waits]

/-- The time waited from is that of a ping which went out and was not answered since. -/
theorem waits_split {tr : List Mark} {time : Ptime} (waited : waits tr t = some (some time)) :
    ∃ early late, tr = early ++ .pinged t time true :: late ∧ .answered t ∉ late := by
  induction tr using List.reverseRecOn with
  | nil => cases waited
  | append_singleton tr mark ih =>
    have carry (old : waits tr t = some (some time)) (other : mark ≠ .answered t) :
        ∃ early late, tr ++ [mark] = early ++ .pinged t time true :: late ∧ .answered t ∉ late := by
      obtain ⟨early, late, rfl, none⟩ := ih old
      refine ⟨early, late ++ [mark], by simp, ?_⟩
      simpa using ⟨none, Ne.symm other⟩
    rw [waits_concat] at waited
    cases mark with
    | pinged t' time' handed =>
      cases handed with
      | true =>
        by_cases same : t = t'
        · subst same
          rw [Waits.mark, Function.update_self, Option.some_inj, Option.some_inj] at waited
          subst waited
          exact ⟨tr, [], rfl, List.not_mem_nil⟩
        · rw [Waits.mark, Function.update_of_ne same] at waited
          exact carry waited (by simp)
      | false =>
        by_cases same : t = t'
        · subst same
          rw [Waits.mark, Function.update_self, Option.some_inj, Option.join_eq_some_iff] at waited
          exact carry waited (by simp)
        · rw [Waits.mark, Function.update_of_ne same] at waited
          exact carry waited (by simp)
    | answered t' =>
      by_cases same : t = t'
      · rw [Waits.mark, same, Function.update_self] at waited
        cases waited
      · rw [Waits.mark, Function.update_of_ne same] at waited
        exact carry waited (by simpa using Ne.symm same)

/-- Times are noted in order. -/
def Timed (tr : List Mark) : Prop :=
  tr.Pairwise fun a b => ∀ ta tb, a.time = some ta → b.time = some tb → ta ≤ tb

/-- A ping that went out and was not answered since is waited for, or a later one is. -/
theorem waits_of_split {early late : List Mark} {time : Ptime}
    (timed : Timed (early ++ .pinged t time true :: late)) (none : .answered t ∉ late) :
    ∃ time', waits (early ++ .pinged t time true :: late) t = some (some time') ∧ time ≤ time' := by
  induction late using List.reverseRecOn with
  | nil => exact ⟨time, by rw [waits_concat, Waits.mark, Function.update_self], le_rfl⟩
  | append_singleton late mark ih =>
    have split : early ++ .pinged t time true :: (late ++ [mark]) =
        (early ++ .pinged t time true :: late) ++ [mark] := by simp
    rw [split] at timed ⊢
    obtain ⟨before, -, across⟩ := List.pairwise_append.mp timed
    obtain ⟨time', waited, later⟩ := ih before fun member => none (by simp [member])
    rw [waits_concat]
    cases mark with
    | pinged t' now handed =>
      by_cases same : t = t'
      · subst same
        cases handed with
        | true =>
          refine ⟨now, by rw [Waits.mark, Function.update_self], ?_⟩
          exact across (.pinged t time true) (by simp) _ (List.mem_singleton_self _) _ _ rfl rfl
        | false =>
          refine ⟨time', ?_, later⟩
          rw [Waits.mark, Function.update_self, waited]
          rfl
      · refine ⟨time', ?_, later⟩
        cases handed <;> rw [Waits.mark, Function.update_of_ne same, waited]
    | answered t' =>
      have other : t ≠ t' := fun same => none (by simp [same])
      exact ⟨time', by rw [Waits.mark, Function.update_of_ne other, waited], later⟩

/-! ## Histories of nodes -/

section Recorded

variable {tr more : List Mark}

/-- The history accounts for what the node has noted, at readings of the clock so far. -/
structure Recorded (w : World) (tr : List Mark) (s : Node) : Prop where
  waited : ∀ t, (waits tr t).isSome = (s.mapPingTtl t).isSome
  noted : ∀ t time, s.mapPingTtl t = some time → ∃ i < s.ticks, time = w.clock i
  past : ∀ mark ∈ tr, ∀ time, mark.time = some time → ∃ i < s.ticks, time = w.clock i
  timed : Timed tr

theorem Recorded.fresh (nothing : s.mapPingTtl = fun _ => none) : Recorded w [] s where
  waited t := by rw [nothing]; rfl
  noted t time found := by
    rw [nothing] at found
    cases found
  past _ member := by cases member
  timed := List.Pairwise.nil

theorem Recorded.still (old : Recorded w tr s) (pings : s'.mapPingTtl = s.mapPingTtl)
    (later : s.ticks ≤ s'.ticks) : Recorded w tr s' where
  waited t := by rw [pings, old.waited]
  noted t time found := by
    rw [pings] at found
    obtain ⟨i, before, same⟩ := old.noted t time found
    exact ⟨i, by omega, same⟩
  past mark member time has := by
    obtain ⟨i, before, same⟩ := old.past mark member time has
    exact ⟨i, by omega, same⟩
  timed := old.timed

theorem Recorded.answered (old : Recorded w tr s) (t : Token)
    (pings : s'.mapPingTtl = Function.update s.mapPingTtl t none) (later : s.ticks ≤ s'.ticks) :
    Recorded w (tr ++ [.answered t]) s' where
  waited t' := by
    rw [waits_concat, pings]
    by_cases same : t' = t
    · subst same
      simp [Waits.mark]
    · simp [Waits.mark, Function.update_of_ne same, old.waited]
  noted t' time found := by
    rw [pings] at found
    by_cases same : t' = t
    · rw [same, Function.update_self] at found
      cases found
    · rw [Function.update_of_ne same] at found
      obtain ⟨i, before, at'⟩ := old.noted t' time found
      exact ⟨i, by omega, at'⟩
  past mark member time has := by
    rcases List.mem_append.mp member with early | new
    · obtain ⟨i, before, at'⟩ := old.past mark early time has
      exact ⟨i, by omega, at'⟩
    · rw [List.mem_singleton.mp new] at has
      cases has
  timed := by
    rw [Timed, List.pairwise_append]
    refine ⟨old.timed, List.pairwise_singleton .., ?_⟩
    intro a _ b new ta tb _ has
    rw [List.mem_singleton.mp new] at has
    cases has

/-- A ping is noted at the present reading of the clock, which is no earlier than those
before it. -/
theorem Recorded.pinged (clock : ∀ i j, i ≤ j → w.clock i ≤ w.clock j) (old : Recorded w tr s)
    (t : Token) (handed : Bool)
    (pings : s'.mapPingTtl = Function.update s.mapPingTtl t (some (w.clock s.ticks)))
    (ticked : s'.ticks = s.ticks + 1) :
    Recorded w (tr ++ [.pinged t (w.clock s.ticks) handed]) s' where
  waited t' := by
    rw [waits_concat, pings]
    by_cases same : t' = t
    · subst same
      cases handed <;> simp [Waits.mark]
    · cases handed <;> simp [Waits.mark, Function.update_of_ne same, old.waited]
  noted t' time found := by
    rw [pings] at found
    by_cases same : t' = t
    · rw [same, Function.update_self, Option.some_inj] at found
      exact ⟨s.ticks, by omega, found.symm⟩
    · rw [Function.update_of_ne same] at found
      obtain ⟨i, before, at'⟩ := old.noted t' time found
      exact ⟨i, by omega, at'⟩
  past mark member time has := by
    rcases List.mem_append.mp member with early | new
    · obtain ⟨i, before, at'⟩ := old.past mark early time has
      exact ⟨i, by omega, at'⟩
    · rw [List.mem_singleton.mp new] at has
      exact ⟨s.ticks, by omega, (Option.some.inj has).symm⟩
  timed := by
    rw [Timed, List.pairwise_append]
    refine ⟨old.timed, List.pairwise_singleton .., ?_⟩
    intro a early b new ta tb first second
    obtain ⟨i, before, rfl⟩ := old.past a early ta first
    rw [List.mem_singleton.mp new] at second
    obtain rfl := Option.some.inj second
    exact clock i s.ticks (by omega)

theorem Trace.recorded (clock : ∀ i j, i ≤ j → w.clock i ≤ w.clock j) (old : Recorded w tr s)
    (trace : Trace w s more s') : Recorded w (tr ++ more) s' := by
  induction trace with
  | start => rwa [List.append_nil]
  | quiet _ pings later _ _ ih => exact ih.still pings later
  | ping _ nonzero ih =>
    obtain ⟨es, after, -⟩ := sendPing_told (w := w) nonzero
    rw [← List.append_assoc]
    exact ih.pinged clock _ _ (by rw [after]; rfl) (by rw [after]; rfl)
  | pingTo _ named ih =>
    obtain ⟨es, after, -⟩ := sendPingTo_told (w := w) named
    rw [← List.append_assoc]
    exact ih.pinged clock _ _ (by rw [after]; rfl) (by rw [after]; rfl)
  | answer _ t ih =>
    rw [← List.append_assoc]
    exact ih.answered t rfl le_rfl

end Recorded

/-! ## Runs -/

/-- A `REPLY_PING` that is handled: what was done before, and the node before and after. -/
structure Pong where
  history : List Mark
  before : Node
  ep : Endpoint
  message : MessageProto
  after : Node

/-- An input other than a packet with a `REPLY_PING`. -/
def Input.NoPong (w : World) : Input → Prop
  | receive _ body => (w.parse body).2.type ≠ .replyPing
  | _ => True

/-- A node that has started and survived some inputs, with its history and the answers to
pings that it has handled. -/
inductive Ran (w : World) : List Mark → List Pong → Node → Prop where
  | start {key : BitVec keySize} {maxRecords : Nat} {storage : Tables} {contacts : Contacts}
      {s : Node} {tr : List Mark}
      (run : Act.exec (restoreFromBackup w) (initial key maxRecords storage contacts) = (.ok (), s))
      (trace : Trace w (initial key maxRecords storage contacts) tr s) : Ran w tr [] s
  | pong {tr : List Mark} {pongs : List Pong} {s s' : Node} {ep : Endpoint} {body : List UInt8}
      {out : Except Fault Unit} (ran : Ran w tr pongs s)
      (type : (w.parse body).2.type = .replyPing)
      (run : Act.exec (handleReceive w ep body) s = (out, s')) (survives : Survives out) :
      Ran w (tr ++ [.answered (w.parse body).2.token])
        (pongs ++ [⟨tr, s, ep, (w.parse body).2, s'⟩]) s'
  | other {tr more : List Mark} {pongs : List Pong} {s s' : Node} {input : Input}
      {out : Except Fault Unit} (ran : Ran w tr pongs s) (none : input.NoPong w)
      (run : Act.exec (input.run w) s = (out, s')) (survives : Survives out)
      (trace : Trace w s more s') : Ran w (tr ++ more) pongs s'

theorem Ran.reach {tr : List Mark} {pongs : List Pong} (ran : Ran w tr pongs s) : Reachable w s := by
  induction ran with
  | start run _ => exact .start run
  | pong _ _ run survives ih => exact ih.receive run survives
  | other _ _ run survives _ ih => exact .step ih run survives

/-- Every run has a history. -/
theorem Reachable.ran (reach : Reachable w s) : ∃ tr pongs, Ran w tr pongs s := by
  induction reach with
  | @start key maxRecords storage contacts s run =>
    obtain ⟨tr, trace⟩ := exists_trace_start w (initial key maxRecords storage contacts)
    rw [run] at trace
    exact ⟨tr, [], .start run trace⟩
  | @step s s' input out reach run survives ih =>
    obtain ⟨tr, pongs, ran⟩ := ih
    by_cases none : input.NoPong w
    · obtain ⟨more, trace⟩ := exists_trace w s input
      rw [run] at trace
      exact ⟨_, _, .other ran none run survives trace⟩
    · cases input with
      | receive ep body => exact ⟨_, _, .pong ran (not_not.mp none) run survives⟩
      | _ => exact absurd trivial none

/-- The handling of an answer to a ping returns. -/
theorem pong_returns (sane : s.Sane) {ep : Endpoint} {body : List UInt8}
    (type : (w.parse body).2.type = .replyPing) :
    ∃ s', Act.exec (handleReceive w ep body) s = (.ok (), s') := by
  have moved : ({ s with senderEndpoint := ep } : Node).Sane := sane.congr rfl
  rw [exec_handleReceive, handleMessageFrom_reply (.inl type)]
  generalize (w.parse body).2 = m at type ⊢
  obtain ⟨ticks, list, noted, handled⟩ := exec_handleReplyPing (w := w) moved m
  rw [handleMessage, type]
  exact ⟨_, Act.exec_rethrowAs_ok.mpr handled⟩

/-- What the handling of an answer to a ping leaves. -/
theorem pong_cases (sane : s.Sane) {ep : Endpoint} {body : List UInt8} {out : Except Fault Unit}
    (type : (w.parse body).2.type = .replyPing)
    (run : Act.exec (handleReceive w ep body) s = (out, s')) :
    (s.mapPingTtl (w.parse body).2.token = none ∧ s' = { s with senderEndpoint := ep }) ∨
      ∃ sent b, s.mapPingTtl (w.parse body).2.token = some sent ∧
        s.contactList.addContact w.evalOrder w.pastEnd (w.clock (s.ticks + 1))
          (w.parse body).2.fromId ep.proto = .ok b ∧
        s' = { s with
          senderEndpoint := ep
          ticks := if sent - w.clock s.ticks < minutes 1 then s.ticks + 2 else s.ticks + 1
          contactList := if sent - w.clock s.ticks < minutes 1 then b else s.contactList
          mapPingTtl := Function.update s.mapPingTtl (w.parse body).2.token none } := by
  have left := congrArg Prod.snd run
  rw [exec_handleReceive, handleMessageFrom_reply (.inl type), Act.exec_rethrowAs_state] at left
  generalize (w.parse body).2 = m at type left ⊢
  have moved : ({ s with senderEndpoint := ep } : Node).Sane := sane.congr rfl
  rw [handleMessage, type] at left
  simp only [] at left
  cases known : s.mapPingTtl m.token with
  | none =>
    rw [exec_handleReplyPing_unknown (s := { s with senderEndpoint := ep }) known] at left
    exact .inl ⟨rfl, left.symm⟩
  | some sent =>
    obtain ⟨b, added, handled⟩ := exec_handleReplyPing_noted (w := w) moved known
    rw [handled] at left
    exact .inr ⟨sent, b, rfl, added, left.symm⟩

theorem Ran.recorded (clock : ∀ i j, i ≤ j → w.clock i ≤ w.clock j) {tr : List Mark}
    {pongs : List Pong} (ran : Ran w tr pongs s) : Recorded w tr s := by
  induction ran with
  | start _ trace =>
    exact trace.recorded clock (.fresh rfl)
  | pong ran type run _ ih =>
    rcases pong_cases ran.reach.sane type run with ⟨unknown, rfl⟩ | ⟨sent, b, -, -, rfl⟩
    · exact ih.answered _ (by rw [← unknown, Function.update_eq_self]) le_rfl
    · exact ih.answered _ rfl (by dsimp only; split <;> omega)
  | other _ _ _ _ trace ih => exact trace.recorded clock ih

/-- The sender of the answer would be a new contact, or a refreshed one. -/
def Pong.Renews (w : World) (p : Pong) : Prop :=
  p.before.contactList.addContact w.evalOrder w.pastEnd (w.clock (p.before.ticks + 1))
    p.message.fromId p.ep.proto ≠ .ok p.before.contactList

/-- What was handled, and what it did to the contact list. -/
theorem Ran.handled (clock : ∀ i j, i ≤ j → w.clock i ≤ w.clock j) {tr : List Mark}
    {pongs : List Pong} (ran : Ran w tr pongs s) {p : Pong} (member : p ∈ pongs) :
    Recorded w p.history p.before ∧
      (p.after.contactList ≠ p.before.contactList ↔
        (p.before.mapPingTtl p.message.token).isSome ∧ p.Renews w) := by
  induction ran with
  | start => cases member
  | other _ _ _ _ _ ih => exact ih member
  | @pong tr pongs s s' ep body out ran type run _ ih =>
    rcases List.mem_append.mp member with old | new
    · exact ih old
    obtain rfl := List.mem_singleton.mp new
    have recorded := ran.recorded clock
    refine ⟨recorded, ?_⟩
    rcases pong_cases ran.reach.sane type run with ⟨unknown, rfl⟩ | ⟨sent, b, known, added, rfl⟩
    · simp [unknown]
    · -- the time noted is never after the present, so no answer is late
      have recent : sent - w.clock s.ticks < minutes 1 := by
        obtain ⟨i, before, rfl⟩ := recorded.noted _ sent known
        have past := clock i s.ticks (by omega)
        exact Int.lt_of_le_of_lt (Int.sub_nonpos_of_le past) (by decide)
      simp only [if_pos recent, Pong.Renews, known, Option.isSome_some, true_and, added, ne_eq,
        Except.ok.injEq]

/-- An answer changes the contact list only if a ping with its token went out, has not been
answered since, and was noted at most a minute before. -/
def Honoured (w : World) (p : Pong) : Prop :=
  p.after.contactList ≠ p.before.contactList →
    ∃ early late time, p.history = early ++ .pinged p.message.token time true :: late ∧
      .answered p.message.token ∉ late ∧ w.clock p.before.ticks - time ≤ minutes 1

/-- If an answer is waited for under the token, and it renews its sender, then it is to a
ping that went out, and at most a minute late. -/
def Prompt (w : World) (p : Pong) : Prop :=
  waits p.history p.message.token ≠ none → p.Renews w →
    ∃ time, waits p.history p.message.token = some (some time) ∧
      w.clock p.before.ticks - time ≤ minutes 1

/-- **Answers to pings.** On a clock that does not go back, the answers of a run count only
once and in time if and only if all that count are prompt. -/
theorem honoured_iff (clock : ∀ i j, i ≤ j → w.clock i ≤ w.clock j) {tr : List Mark}
    {pongs : List Pong} (ran : Ran w tr pongs s) :
    (∀ p ∈ pongs, Honoured w p) ↔ ∀ p ∈ pongs, Prompt w p := by
  refine forall₂_congr fun p member => ?_
  obtain ⟨recorded, changes⟩ := ran.handled clock member
  have known := recorded.waited p.message.token
  unfold Honoured Prompt
  rw [changes]
  constructor
  · intro honoured waited renews
    have noted : (p.before.mapPingTtl p.message.token).isSome := by
      rw [← known]
      exact Option.isSome_iff_ne_none.mpr waited
    obtain ⟨early, late, time, split, none, recent⟩ := honoured ⟨noted, renews⟩
    have timed := recorded.timed
    rw [split] at timed ⊢
    obtain ⟨time', last, later⟩ := waits_of_split timed none
    exact ⟨time', last, Int.le_trans (Int.sub_le_sub_left later _) recent⟩
  · rintro prompt ⟨noted, renews⟩
    rw [← known] at noted
    obtain ⟨time, last, recent⟩ := prompt (Option.isSome_iff_ne_none.mp noted) renews
    obtain ⟨early, late, split, none⟩ := waits_split last
    exact ⟨early, late, time, split, none, recent⟩

/-- A node that has just started pings an endpoint, and is then answered by a first peer. -/
theorem ran_answered (sound : w.backup.Sound) (named : epp.Named) (key : BitVec keySize)
    (ep : Endpoint) (body : List UInt8) {m : MessageProto} (parsed : (w.parse body).2 = m)
    (type : m.type = .replyPing) (other : m.fromId ≠ keyToString key) :
    ∃ tr p s, Ran w tr [p] s ∧ p.history = [.pinged m.token (w.clock 0) true] ∧ p.message = m ∧
      p.before.ticks = 1 ∧ (p.before.mapPingTtl m.token).isSome ∧ p.Renews w := by
  have start := exec_restoreFromBackup_empty sound key 0 {}
  let s₀ : Node := { initial key 0 {} [] with dbBackup := { tables := [], calls := 1 } }
  have first : Ran w [] [] s₀ := .start start (Trace.start.still rfl le_rfl rfl)
  have pings := exec_sendPingTo (w := w) (s := s₀) (t := m.token) named
  let s₁ : Node := (pinged w s₀ m.token).logged
    (handOver w { type := .sendPing, fromId := s₀.id, token := m.token } epp)
  have trace : Trace w s₀ [.pinged m.token (w.clock 0) true] s₁ := by
    have went := Trace.pingTo (t := m.token) (Trace.start (w := w) (s := s₀)) named
    rw [handedPing_sendPingTo named, pings] at went
    exact went
  have second : Ran w [.pinged m.token (w.clock 0) true] [] s₁ :=
    @Ran.other w [] _ [] s₀ s₁ (.pingEndpoint epp m.token) _ first trivial pings trivial trace
  have waited : s₁.mapPingTtl m.token = some (w.clock 0) := Function.update_self ..
  have pong : (w.parse body).2.type = .replyPing := by rw [parsed]; exact type
  obtain ⟨s₂, received⟩ := @pong_returns w s₁ second.reach.sane ep body pong
  have third := second.pong pong received trivial
  rw [parsed] at third
  refine ⟨_, _, _, third, rfl, rfl, rfl, ?_, ?_⟩
  · exact congrArg Option.isSome waited
  · intro same
    have added := @Bucket.addContact_first w.evalOrder w.pastEnd (w.clock 2) _ (keyToString key) _
      ep.proto_named other
    have filed := congrArg Bucket.entries (Except.ok.inj (added.symm.trans same))
    exact List.cons_ne_nil _ _ filed

theorem answering_clock {later : Ptime} (after : 0 ≤ later) (i j : Nat) (le : i ≤ j) :
    (World.answering later).clock i ≤ (World.answering later).clock j := by
  show (if i = 0 then 0 else later) ≤ if j = 0 then 0 else later
  by_cases first : i = 0
  · rw [if_pos first]
    split
    · exact Int.le_refl 0
    · exact after
  · have second : ¬ j = 0 := by omega
    rw [if_neg first, if_neg second]

/-- In this world the peer answers, whenever it is. -/
theorem ran_answering (later : Ptime) :
    ∃ tr p s, Ran (.answering later) tr [p] s ∧ p.history = [.pinged 7 0 true] ∧
      p.message.token = 7 ∧ p.before.ticks = 1 ∧ (p.before.mapPingTtl p.message.token).isSome ∧
      p.Renews (.answering later) := by
  let ep : Endpoint := { address := "10.0.0.1", port := 1, printed := by simp }
  have named : peerA.ep.Named := by decide
  obtain ⟨tr, p, s, ran, history, message, ticks, noted, renews⟩ := ran_answered
    (w := .answering later) Sqlite.inOrder_sound named 1 ep [0]
    (m := { type := .replyPing, fromId := peerA.key, token := 7 }) rfl rfl (by decide +kernel)
  rw [← message] at noted
  exact ⟨tr, p, s, ran, history, by rw [message], ticks, noted, renews⟩

/-- A ping that is answered within the second is honoured, and its peer comes to be known. -/
theorem honoured_iff_prompt :
    ∃ tr p s, Ran (.answering 0) tr [p] s ∧ Honoured (.answering 0) p ∧
      p.after.contactList ≠ p.before.contactList := by
  have clock := answering_clock (Int.le_refl 0)
  obtain ⟨tr, p, s, ran, history, token, ticks, noted, renews⟩ := ran_answering 0
  refine ⟨tr, p, s, ran, ?_, ?_⟩
  · refine (honoured_iff clock ran).mpr (fun p' member => ?_) p (List.mem_singleton_self p)
    rw [List.mem_singleton.mp member]
    intro _ _
    rw [history, token, ticks]
    exact ⟨0, by decide, by decide⟩
  · exact (ran.handled clock (List.mem_singleton_self p)).2.mpr ⟨noted, renews⟩

/-- An answer that comes two minutes late counts as well. -/
theorem late_counts :
    ∃ w : World, (∀ i j, i ≤ j → w.clock i ≤ w.clock j) ∧
      ∃ tr p s, Ran w tr [p] s ∧ ¬ Honoured w p := by
  have clock := answering_clock (show 0 ≤ minutes 2 by decide)
  obtain ⟨tr, p, s, ran, history, token, ticks, noted, renews⟩ := ran_answering (minutes 2)
  refine ⟨_, clock, tr, p, s, ran, fun honoured => ?_⟩
  obtain ⟨early, late, time, split, -, recent⟩ :=
    honoured ((ran.handled clock (List.mem_singleton_self p)).2.mpr ⟨noted, renews⟩)
  rw [history, token] at split
  have only : Mark.pinged 7 time true ∈ [Mark.pinged 7 0 true] := by
    rw [split]
    simp
  obtain rfl : time = 0 := by simpa using only
  rw [ticks] at recent
  revert recent
  decide

end Node

end MiniDht
