import Mathlib.Data.List.Infix

/-!
# First in, first out

A queue as its history: all that was ever put in, and how much of it has been taken out
again. One element at a time is being worked on, and it stays in the queue until it is done.
-/

namespace MiniDht.Lib

/-- A queue of `α` with its history. -/
structure Fifo (α : Type) where
  /-- All there was, in order. -/
  all : List α
  /-- How many are done. -/
  done : Nat
  within : done ≤ all.length

namespace Fifo

variable {α : Type}

/-- Nothing was put in yet. -/
def empty : Fifo α where
  all := []
  done := 0
  within := le_refl 0

/-- What is in the queue. -/
def waiting (q : Fifo α) : List α := q.all.drop q.done

/-- What has been begun: all that is done, and the first in the queue. -/
def begun (q : Fifo α) : List α := q.all.take (q.done + 1)

/-- Put in one more. -/
def push (q : Fifo α) (a : α) : Fifo α where
  all := q.all ++ [a]
  done := q.done
  within := by
    rw [List.length_append]
    exact Nat.le_add_right_of_le q.within

theorem waiting_ne_nil_iff {q : Fifo α} : q.waiting ≠ [] ↔ q.done < q.all.length := by
  rw [waiting, ne_eq, List.drop_eq_nil_iff, not_le]

/-- The first is done. -/
def finish (q : Fifo α) (some : q.waiting ≠ []) : Fifo α where
  all := q.all
  done := q.done + 1
  within := waiting_ne_nil_iff.mp some

theorem waiting_push (q : Fifo α) (a : α) : (q.push a).waiting = q.waiting ++ [a] :=
  List.drop_append_of_le_length q.within

theorem waiting_finish (q : Fifo α) (some : q.waiting ≠ []) :
    (q.finish some).waiting = q.waiting.tail :=
  List.tail_drop.symm

theorem begun_prefix (q : Fifo α) : q.begun <+: q.all := List.take_prefix _ _

/-- An empty queue has begun and finished all there was. -/
theorem idle {q : Fifo α} (none : q.waiting = []) : q.done = q.all.length ∧ q.begun = q.all := by
  have last : q.all.length ≤ q.done := List.drop_eq_nil_iff.mp none
  exact ⟨le_antisymm q.within last, List.take_of_length_le (Nat.le_succ_of_le last)⟩

/-- What is put into an empty queue is begun at once. -/
theorem begun_push_idle {q : Fifo α} (none : q.waiting = []) (a : α) :
    (q.push a).begun = q.begun ++ [a] := by
  obtain ⟨last, all⟩ := idle none
  have whole : (q.all ++ [a]).length ≤ q.done + 1 := by rw [last, List.length_append]; rfl
  rw [all]
  exact List.take_of_length_le whole

theorem begun_push_busy {q : Fifo α} (some : q.waiting ≠ []) (a : α) :
    (q.push a).begun = q.begun :=
  List.take_append_of_le_length (waiting_ne_nil_iff.mp some)

/-- The next in the queue is begun when the first is done. -/
theorem begun_finish (q : Fifo α) (some : q.waiting ≠ []) :
    (q.finish some).begun = q.begun ++ q.waiting.tail.head?.toList := by
  rw [waiting, List.tail_drop, List.head?_drop]
  exact List.take_add_one

end Fifo

end MiniDht.Lib
