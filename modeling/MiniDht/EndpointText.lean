import MiniDht.Const

/-!
# The text of an endpoint

An endpoint is written as its address and its port, with a colon between, and cut at the last
one, so an address may hold colons of its own. Before an address in brackets the cut goes
wrong: it takes in the closing bracket, and whether that stands before the colon is never
asked.
-/

namespace MiniDht

/-! ## Looking for a separator -/

section Separator

variable {α : Type} [DecidableEq α] {sep : α} {before after : List α}

theorem findIdx?_front (first : sep ∉ before) :
    (before ++ sep :: after).findIdx? (· = sep) = some before.length := by
  have none : before.findIdx? (· = sep) = none := by
    rw [List.findIdx?_eq_none_iff]
    intro c member
    have other : c ≠ sep := fun same => first (same ▸ member)
    simpa using other
  rw [List.findIdx?_append, none]
  simp [List.findIdx?_cons]

/-- Looked for from the back, the separator is found behind the port. -/
theorem findIdx?_back (last : sep ∉ after) :
    (before ++ sep :: after).reverse.findIdx? (· = sep) = some after.length := by
  have behind : sep ∉ after.reverse := fun member => last (List.mem_reverse.mp member)
  rw [List.reverse_append, List.reverse_cons, List.append_assoc, List.singleton_append,
    findIdx?_front behind, List.length_reverse]

theorem findIdx?_eq_none_iff_not_mem {xs : List α} : xs.findIdx? (· = sep) = none ↔ sep ∉ xs := by
  rw [List.findIdx?_eq_none_iff]
  constructor
  · intro none member
    have other := none sep member
    simp at other
  · intro absent c member
    have other : c ≠ sep := fun same => absent (same ▸ member)
    simpa using other

end Separator

/-! ## Joining and cutting -/

/-- The address does not begin with a bracket, and the port has no colon. -/
def EndpointProto.Plain (ep : EndpointProto) : Prop :=
  ep.address.toList.head? ≠ some '[' ∧ ':' ∉ ep.port.toList

instance (ep : EndpointProto) : Decidable ep.Plain := inferInstanceAs (Decidable (_ ∧ _))

theorem endpointToString_toList (ep : EndpointProto) :
    (endpointToString ep).toList = ep.address.toList ++ ':' :: ep.port.toList := by
  simp [endpointToString]

/-- What is joined is cut apart again. -/
theorem stringToEndpointPair_endpointToString {ep : EndpointProto} (plain : ep.Plain) :
    stringToEndpointPair (endpointToString ep) = .ok (ep.address, ep.port) := by
  obtain ⟨bracket, colon⟩ := plain
  have first : (ep.address.toList ++ ':' :: ep.port.toList).head? ≠ some '[' := by
    cases chars : ep.address.toList with
    | nil => simp
    | cons c rest =>
      rw [chars] at bracket
      exact bracket
  have sep : (ep.address.toList ++ ':' :: ep.port.toList).length - 1 - ep.port.toList.length =
      ep.address.toList.length := by
    rw [List.length_append, List.length_cons]
    omega
  rw [stringToEndpointPair, endpointToString_toList]
  simp only [findIdx?_back colon, if_neg first, sep]
  have port : (ep.address.toList ++ ':' :: ep.port.toList).drop (ep.address.toList.length + 1) =
      ep.port.toList := by
    rw [List.drop_append, List.drop_eq_nil_of_le (Nat.le_succ _)]
    simp
  have whole : ep.port.toList.take ((ep.address.toList ++ ':' :: ep.port.toList).length - 1) =
      ep.port.toList := by
    apply List.take_of_length_le
    rw [List.length_append, List.length_cons]
    omega
  rw [port, whole, List.take_left, String.ofList_toList, String.ofList_toList]

/-! ## Brackets -/

/-- The text of an address in brackets and a port. -/
structure Bracketed (str a p : String) : Prop where
  text : str = "[" ++ a ++ "]:" ++ p
  address : ']' ∉ a.toList
  port : ':' ∉ p.toList ∧ ']' ∉ p.toList

variable {str a p : String}

theorem Bracketed.toList (bracketed : Bracketed str a p) :
    str.toList = ('[' :: a.toList ++ [']']) ++ ':' :: p.toList := by
  simp [bracketed.text]

/-- A bracket, and somewhere a closing one and a colon. -/
def Opened (str : String) : Prop :=
  str.toList.head? = some '[' ∧ ':' ∈ str.toList ∧ ']' ∈ str.toList

instance (str : String) : Decidable (Opened str) := inferInstanceAs (Decidable (_ ∧ _ ∧ _))

theorem Bracketed.opened (bracketed : Bracketed str a p) : Opened str := by
  rw [Opened, bracketed.toList]
  simp

/-- The closing bracket stays with the address. -/
theorem Bracketed.parsed (bracketed : Bracketed str a p) :
    stringToEndpointPair str = .ok (a ++ "]", p) := by
  have chars := bracketed.toList
  have closing : str.toList.findIdx? (· = ']') = some (a.toList.length + 1) := by
    have absent : ']' ∉ '[' :: a.toList := by simp [bracketed.address]
    rw [chars, List.append_assoc]
    exact findIdx?_front absent
  have sep : str.toList.length - 1 - p.toList.length = a.toList.length + 2 := by
    simp [chars]
    omega
  have address : (str.toList.drop 1).take (a.toList.length + 1) = a.toList ++ [']'] := by
    rw [chars]
    exact List.take_left' List.length_append
  have behind : str.toList.drop (a.toList.length + 2 + 1) = p.toList := by
    rw [chars, List.append_cons ('[' :: a.toList ++ [']'])]
    exact List.drop_left' (by simp)
  have port : (str.toList.drop (a.toList.length + 2 + 1)).take (str.toList.length - 1) = p.toList := by
    rw [behind]
    apply List.take_of_length_le
    omega
  have back : str.toList.reverse.findIdx? (· = ':') = some p.toList.length := by
    rw [chars]
    exact findIdx?_back bracketed.port.1
  have head : str.toList.head? = some '[' := bracketed.opened.1
  unfold stringToEndpointPair
  simp only [back, closing, if_pos head, sep, address, port]
  simp [String.ofList_append]

/-- With a bracket in front, a colon and a closing bracket anywhere are enough. -/
theorem Opened.accepted (opened : Opened str) : ∃ pair, stringToEndpointPair str = .ok pair := by
  obtain ⟨head, colon, closing⟩ := opened
  rw [← List.mem_reverse, ← not_not (a := _ ∈ _), ← findIdx?_eq_none_iff_not_mem] at colon
  rw [← not_not (a := _ ∈ _), ← findIdx?_eq_none_iff_not_mem] at closing
  obtain ⟨back, colon⟩ := Option.ne_none_iff_exists'.mp colon
  obtain ⟨pos, closing⟩ := Option.ne_none_iff_exists'.mp closing
  unfold stringToEndpointPair
  simp only [colon, if_pos head, closing]
  exact ⟨_, rfl⟩

theorem refused_of_not_opened (head : str.toList.head? = some '[') (closed : ¬ Opened str) :
    stringToEndpointPair str = .error (.exception "malformed IP!") := by
  unfold stringToEndpointPair
  by_cases colon : ':' ∈ str.toList
  · have closing : ']' ∉ str.toList := fun closing => closed ⟨head, colon, closing⟩
    rw [← findIdx?_eq_none_iff_not_mem] at closing
    simp only [if_pos head, closing]
    split <;> rfl
  · rw [← List.mem_reverse, ← findIdx?_eq_none_iff_not_mem] at colon
    simp only [colon]

/-- An address in brackets is parsed as it was written, and a text that only begins like one
is refused. -/
def ParsedAsWritten (str : String) : Prop :=
  (∀ a p, Bracketed str a p → stringToEndpointPair str = .ok (a, p)) ∧
    (str.toList.head? = some '[' → (¬ ∃ a p, Bracketed str a p) →
      ∃ what, stringToEndpointPair str = .error (.exception what))

/-- **Brackets.** Texts are parsed as written as long as none begins with a bracket and has a
colon and a closing bracket. Every address in brackets is such a text. -/
theorem parsedAsWritten_iff (str : String) : ParsedAsWritten str ↔ ¬ Opened str := by
  constructor
  · rintro ⟨written, refused⟩ opened
    by_cases form : ∃ a p, Bracketed str a p
    · obtain ⟨a, p, bracketed⟩ := form
      have same := (written a p bracketed).symm.trans bracketed.parsed
      have longer := congrArg (fun pair => pair.1.toList.length) (Except.ok.inj same)
      simp at longer
    · obtain ⟨what, refused⟩ := refused opened.1 form
      obtain ⟨pair, accepted⟩ := opened.accepted
      rw [accepted] at refused
      cases refused
  · intro closed
    refine ⟨fun a p bracketed => absurd bracketed.opened closed, fun head _ => ?_⟩
    exact ⟨_, refused_of_not_opened head closed⟩

/-- Such a text, and one that is accepted with the bracket after the colon. -/
theorem not_parsedAsWritten : ¬ ParsedAsWritten "[::1]:4000" ∧
    stringToEndpointPair "[::1]:4000" = .ok ("::1]", "4000") ∧
    stringToEndpointPair "[a:b]" = .ok ("a:b]", "b]") := by
  refine ⟨fun parsed => ?_, by decide, by decide⟩
  have written := parsed.1 "::1" "4000" ⟨by decide, by decide, by decide⟩
  exact absurd written (by decide)

end MiniDht
