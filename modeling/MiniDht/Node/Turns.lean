import MiniDht.Node.QueryKey

/-!
# What happens to a search

A search changes when contacts are delivered to it, whoever sends them, and is erased at
most once more. Along any such run the requests under its token are those of its rounds, and
what every round keeps holds as long as the search is there.
-/

namespace MiniDht

open Lib

namespace Node

/-- A reply with contacts came in, which found a search or found none; or the search was
erased by something else. -/
inductive Turn where
  | reply (found : Option Search) (m : MessageProto)
  | erased

/-- The turns of the search under a token, and all requests the replies led to. In between
the node may change in any way that leaves the search alone. -/
inductive Follows (w : World) (t : Token) :
    Node → List Turn → List MessageProto → Node → Prop where
  | done {s : Node} : Follows w t s [] [] s
  | reply {s s₁ s' : Node} {m : MessageProto} {turns : List Turn} {sent : List MessageProto}
      (token : m.token = t) (run : Act.exec (handleReplyFindNode w m) s = (.ok (), s₁))
      (rest : Follows w t s₁ turns sent s') :
      Follows w t s (.reply (s.mapSearch t) m :: turns) (searchRequests t (s.since s₁) ++ sent) s'
  | other {s s₁ s' : Node} {turns : List Turn} {sent : List MessageProto} (sane : s₁.Sane)
      (kept : s₁.mapSearch t = s.mapSearch t) (rest : Follows w t s₁ turns sent s') :
      Follows w t s turns sent s'
  | erase {s s₁ s' : Node} {turns : List Turn} {sent : List MessageProto} (sane : s₁.Sane)
      (gone : s₁.mapSearch t = none) (rest : Follows w t s₁ turns sent s') :
      Follows w t s (.erased :: turns) sent s'

variable {w : World} {t : Token} {s s' : Node} {turns : List Turn} {sent : List MessageProto}
  {m : MessageProto} {J : Search → Prop}

/-- The message is a request of a round of such a search. -/
def OfRound (t : Token) (J : Search → Prop) (m : MessageProto) : Prop :=
  ∃ q lc id k key, J q ∧ m = roundMessage q lc id k t key

theorem OfRound.map {q : Search} (fits : J q) (lc : List ContactProto) (id k : String)
    (keys : List String) : ∀ m ∈ keys.map (roundMessage q lc id k t), OfRound t J m := by
  intro m member
  obtain ⟨key, -, rfl⟩ := List.mem_map.mp member
  exact ⟨q, lc, id, k, key, fits, rfl⟩

/-- What every round keeps is kept, and every request is one of a round. -/
theorem Follows.sound (follows : Follows w t s turns sent s') (sane : s.Sane)
    (step : ∀ q lc, J q → q.ends lc = false → J (q.next lc))
    (start : ∀ q, s.mapSearch t = some q → J q) :
    s'.Sane ∧ (∀ q, s'.mapSearch t = some q → J q) ∧ ∀ m ∈ sent, OfRound t J m := by
  induction follows with
  | done => exact ⟨sane, start, by simp⟩
  | @reply s s₁ s' m turns sent token run rest ih =>
    subst token
    cases here : s.mapSearch m.token with
    | none =>
      obtain ⟨rfl, none⟩ := searchRequests_unknown here run
      rw [none, List.nil_append]
      exact ih sane start
    | some q =>
      have left := reply_search sane here run
      have after : ∀ q', s₁.mapSearch m.token = some q' → J q' := by
        intro q' there
        rw [left] at there
        cases ended : q.ends m.contactList with
        | true => simp [ended] at there
        | false =>
          rw [ended, if_neg Bool.false_ne_true, Option.some.injEq] at there
          exact there ▸ step q _ (start q here) ended
      obtain ⟨kept, holds, later⟩ := ih (reply_sane sane run) after
      refine ⟨kept, holds, List.forall_mem_append.mpr ⟨?_, later⟩⟩
      rw [searchRequests_handled sane here run]
      exact OfRound.map (start q here) _ _ _ _
  | other kept same _ ih => exact ih kept fun q here => start q (same ▸ here)
  | erase kept gone _ ih =>
    refine ih kept fun q here => ?_
    rw [gone] at here
    cases here

/-- A search that no round ends is there until something else erases it. -/
theorem Follows.stays (follows : Follows w t s turns sent s') (sane : s.Sane)
    (step : ∀ q lc, J q → q.ends lc = false ∧ J (q.next lc)) (only : .erased ∉ turns)
    (start : ∃ q, s.mapSearch t = some q ∧ J q) : ∃ q, s'.mapSearch t = some q ∧ J q := by
  induction follows with
  | done => exact start
  | @reply s s₁ s' m turns sent token run rest ih =>
    subst token
    obtain ⟨q, here, fits⟩ := start
    obtain ⟨goes, next⟩ := step q m.contactList fits
    refine ih (reply_sane sane run) (fun later => only (List.mem_cons_of_mem _ later)) ⟨_, ?_, next⟩
    rw [reply_search sane here run, goes, if_neg Bool.false_ne_true]
  | other kept same _ ih => exact ih kept only (same ▸ start)
  | erase => exact absurd List.mem_cons_self only

end Node

end MiniDht
