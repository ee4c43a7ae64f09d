import Mathlib.Data.List.Basic

/-!
# Systems of parts

A message touches the part it is addressed to, and what it does there depends on that part
alone. A run then makes of a part what its own messages make of it (`run_part`), and runs
in which the messages for every part come in one order cannot be told apart (`run_mixed`).
-/

namespace MiniDht.Lib

/-- A system `σ` of parts under keys `κ`. A step may fail, and then the run is over. -/
structure Apart (σ μ κ ν : Type) where
  step : μ → σ → Option σ
  addressee : μ → κ
  part : κ → σ → ν
  /-- What a message makes of the part it is addressed to. -/
  next : μ → ν → Option ν
  inv : σ → Prop
  keeps : ∀ {m s s'}, inv s → step m s = some s' → inv s'
  own : ∀ {m s}, inv s → (step m s).map (part (addressee m)) = next m (part (addressee m) s)
  others : ∀ {m s s' k}, inv s → step m s = some s' → k ≠ addressee m → part k s' = part k s

namespace Apart

variable {σ μ κ ν : Type} (sys : Apart σ μ κ ν)

/-- The messages in turn, from a state. -/
def run (ms : List μ) (s : σ) : Option σ := ms.foldlM (fun s m => sys.step m s) s

/-- The messages in turn, on one part. -/
def course (ms : List μ) (v : ν) : Option ν := ms.foldlM (fun v m => sys.next m v) v

/-- The messages for one part. -/
def mail [DecidableEq κ] (k : κ) (ms : List μ) : List μ := ms.filter fun m => sys.addressee m = k

theorem run_cons (m : μ) (ms : List μ) (s : σ) :
    sys.run (m :: ms) s = (sys.step m s).bind (sys.run ms) := by
  rw [run, List.foldlM_cons]
  rfl

theorem course_cons (m : μ) (ms : List μ) (v : ν) :
    sys.course (m :: ms) v = (sys.next m v).bind (sys.course ms) := by
  rw [course, List.foldlM_cons]
  rfl

/-- Messages on which nothing that holds of a part can fail lead through. -/
theorem course_isSome {P : ν → Prop} {ms : List μ} {v : ν} (holds : P v)
    (fine : ∀ m ∈ ms, ∀ v, P v → ∃ v', sys.next m v = some v' ∧ P v') :
    (sys.course ms v).isSome := by
  induction ms generalizing v with
  | nil => rfl
  | cons m ms ih =>
    obtain ⟨v', next, holds'⟩ := fine m List.mem_cons_self v holds
    rw [course_cons, next, Option.bind_some]
    exact ih holds' fun m' later => fine m' (List.mem_cons_of_mem m later)

/-- The first message, as the part it is addressed to sees it. -/
theorem next_step {m : μ} {s s' : σ} (holds : sys.inv s) (first : sys.step m s = some s') :
    sys.next m (sys.part (sys.addressee m) s) = some (sys.part (sys.addressee m) s') := by
  rw [← sys.own holds, first]
  rfl

section Mail

variable [DecidableEq κ] {sys} {m : μ} {ms ms' : List μ} {s s' : σ} {k : κ}

theorem mail_cons_self : sys.mail (sys.addressee m) (m :: ms) = m :: sys.mail (sys.addressee m) ms := by
  simp [mail]

theorem mail_cons_of_ne (other : k ≠ sys.addressee m) : sys.mail k (m :: ms) = sys.mail k ms := by
  simp [mail, Ne.symm other]

/-- What a run makes of a part is what the messages for the part make of it. -/
theorem run_part (holds : sys.inv s) (ran : sys.run ms s = some s') (k : κ) :
    sys.course (sys.mail k ms) (sys.part k s) = some (sys.part k s') := by
  induction ms generalizing s with
  | nil =>
    cases ran
    rfl
  | cons m ms ih =>
    rw [run_cons, Option.bind_eq_some_iff] at ran
    obtain ⟨s₁, first, rest⟩ := ran
    have later := ih (sys.keeps holds first) rest
    by_cases mine : k = sys.addressee m
    · subst mine
      rw [mail_cons_self, course_cons, sys.next_step holds first]
      exact later
    · rw [mail_cons_of_ne mine, ← sys.others holds first mine]
      exact later

/-- A run goes through when every part lets its own messages through. -/
theorem run_isSome_iff (holds : sys.inv s) :
    (sys.run ms s).isSome ↔ ∀ k, (sys.course (sys.mail k ms) (sys.part k s)).isSome := by
  induction ms generalizing s with
  | nil => exact iff_of_true rfl fun _ => rfl
  | cons m ms ih =>
    rw [run_cons]
    cases first : sys.step m s with
    | none =>
      refine iff_of_false (by simp) fun all => ?_
      have stuck : sys.next m (sys.part (sys.addressee m) s) = none := by
        rw [← sys.own holds, first]
        rfl
      have mine := all (sys.addressee m)
      rw [mail_cons_self, course_cons, stuck] at mine
      cases mine
    | some s₁ =>
      rw [Option.bind_some, ih (sys.keeps holds first)]
      refine forall_congr' fun k => ?_
      by_cases mine : k = sys.addressee m
      · subst mine
        rw [mail_cons_self, course_cons, sys.next_step holds first, Option.bind_some]
      · rw [mail_cons_of_ne mine, sys.others holds first mine]

/-- Two runs of the same messages, mixed differently: both go through or both fail, and
they leave the same parts. -/
theorem run_mixed (holds : sys.inv s) (same : ∀ k, sys.mail k ms = sys.mail k ms') :
    (sys.run ms s).map (fun s' k => sys.part k s') = (sys.run ms' s).map (fun s' k => sys.part k s') := by
  have both : (sys.run ms s).isSome ↔ (sys.run ms' s).isSome := by
    rw [run_isSome_iff holds, run_isSome_iff holds]
    exact forall_congr' fun k => by rw [same k]
  cases ran : sys.run ms s with
  | none =>
    cases ran' : sys.run ms' s with
    | none => rfl
    | some s₂ =>
      rw [ran, ran'] at both
      exact absurd (both.mpr rfl) (by simp)
  | some s₁ =>
    cases ran' : sys.run ms' s with
    | none =>
      rw [ran, ran'] at both
      exact absurd (both.mp rfl) (by simp)
    | some s₂ =>
      rw [Option.map_some, Option.map_some, Option.some_inj]
      funext k
      have mine := run_part holds ran k
      rw [same k, run_part holds ran' k, Option.some_inj] at mine
      exact mine.symm

end Mail

end Apart

end MiniDht.Lib
