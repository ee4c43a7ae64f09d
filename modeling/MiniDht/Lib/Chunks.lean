import Mathlib.Data.List.Basic

/-!
# A list in pieces of one length

`Chunks n all parts`: `parts` is `all` in order, cut after every `n` members. No piece is
empty and only the last one may be short.
-/

namespace MiniDht.Lib

variable {α : Type*} {n : Nat}

/-- A list and the pieces it is cut into. -/
structure Chunks (n : Nat) (all : List α) (parts : List (List α)) : Prop where
  flatten : parts.flatten = all
  bounds : ∀ part ∈ parts, 1 ≤ part.length ∧ part.length ≤ n
  full : ∀ part ∈ parts.dropLast, part.length = n

namespace Chunks

variable {all part : List α} {parts : List (List α)}

theorem nil (n : Nat) : Chunks n ([] : List α) [] where
  flatten := rfl
  bounds _ none := absurd none List.not_mem_nil
  full _ none := absurd none List.not_mem_nil

/-- What fits one piece is one. -/
theorem single (some : 1 ≤ part.length) (fits : part.length ≤ n) : Chunks n part [part] where
  flatten := List.append_nil part
  bounds := by
    rintro _ (_ | ⟨_, none⟩)
    · exact ⟨some, fits⟩
    · cases none
  full _ none := absurd none List.not_mem_nil

/-- A full piece in front. -/
theorem cons (positive : 1 ≤ n) (whole : part.length = n) (rest : Chunks n all parts) :
    Chunks n (part ++ all) (part :: parts) where
  flatten := congrArg (part ++ ·) rest.flatten
  bounds := by
    rintro p (_ | ⟨_, later⟩)
    · omega
    · exact rest.bounds p later
  full := by
    intro p member
    cases parts with
    | nil => cases member
    | cons second others =>
      rw [List.dropLast_cons_cons] at member
      rcases List.mem_cons.mp member with rfl | later
      · exact whole
      · exact rest.full p later

end Chunks

end MiniDht.Lib
