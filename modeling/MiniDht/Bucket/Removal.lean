import MiniDht.Bucket.Filing

/-!
# Removing the contacts of an endpoint

The loop of `remove_contact` goes back to `begin()` after an erase and then steps on, so
the first entry is compared only at the start. Nothing is lost by that unless the very first
entry is the one erased: then its successor is never compared, and without a successor the
loop runs past `end()`.
-/

namespace MiniDht

open Lib

/-- Endpoints with an empty part fail an assert of the comparison. -/
theorem endpointEq_unnamed {a b : EndpointProto} (unnamed : ¬ (a.Named ∧ b.Named)) :
    a.eq b = .error .assertion := by
  unfold EndpointProto.eq
  by_cases aa : a.address = ""
  · rw [assertThat_neg (not_not.mpr aa)]
    rfl
  rw [assertThat_pos aa]
  by_cases ba : b.address = ""
  · rw [assertThat_neg (not_not.mpr ba)]
    rfl
  rw [assertThat_pos ba]
  by_cases ap : a.port = ""
  · rw [assertThat_neg (not_not.mpr ap)]
    rfl
  rw [assertThat_pos ap]
  by_cases bp : b.port = ""
  · rw [assertThat_neg (not_not.mpr bp)]
    rfl
  exact absurd ⟨⟨aa, ap⟩, ba, bp⟩ unnamed

namespace Bucket

/-- The endpoint of an entry can be compared with the lost one. -/
def Compares (ep : EndpointProto) (e : Nat × ContactProto) : Prop := e.2.ep.Named ∧ ep.Named

instance (ep : EndpointProto) (e : Nat × ContactProto) : Decidable (Compares ep e) :=
  inferInstanceAs (Decidable (_ ∧ _))

/-- The entries of other endpoints. -/
def others (ep : EndpointProto) (entries : List (Nat × ContactProto)) : List (Nat × ContactProto) :=
  entries.filter (·.2.ep ≠ ep)

section Step

variable {ep : EndpointProto} {fuel pos : Nat} {entries : List (Nat × ContactProto)}
  {e : Nat × ContactProto}

theorem removeFrom_end (past : entries[pos]? = none) :
    removeFrom ep (fuel + 1) pos entries = .ok entries := by
  rw [removeFrom, past]

theorem removeFrom_unnamed (here : entries[pos]? = some e) (unnamed : ¬ Compares ep e) :
    removeFrom ep (fuel + 1) pos entries = .error .assertion := by
  rw [removeFrom, here]
  show (e.2.ep.eq ep >>= _) = _
  rw [endpointEq_unnamed unnamed]
  rfl

theorem removeFrom_keep (here : entries[pos]? = some e) (named : Compares ep e)
    (other : e.2.ep ≠ ep) :
    removeFrom ep (fuel + 1) pos entries = removeFrom ep fuel (pos + 1) entries := by
  rw [removeFrom, here]
  show (e.2.ep.eq ep >>= _) = _
  rw [Search.endpointEq_named named.1 named.2, decide_eq_false other]
  rfl

theorem removeFrom_drop (here : entries[pos]? = some e) (named : Compares ep e)
    (lost : e.2.ep = ep) :
    removeFrom ep (fuel + 1) pos entries =
      if entries.eraseIdx pos = [] then .error .undefined
      else removeFrom ep fuel 1 (entries.eraseIdx pos) := by
  rw [removeFrom, here]
  show (e.2.ep.eq ep >>= _) = _
  rw [Search.endpointEq_named named.1 named.2, decide_eq_true lost]
  by_cases empty : entries.eraseIdx pos = []
  · rw [if_pos empty, empty]
    rfl
  · have left : (entries.eraseIdx pos).length ≠ 0 := by simpa using empty
    rw [if_neg empty]
    show (if _ then _ else _) = _
    rw [if_neg left]

end Step

/-! ## The loop -/

section Loop

variable {ep : EndpointProto} {entries : List (Nat × ContactProto)} {e : Nat × ContactProto}

theorem others_eraseIdx {pos : Nat} (here : entries[pos]? = some e) (lost : e.2.ep = ep) :
    others ep (entries.eraseIdx pos) = others ep entries := by
  obtain ⟨inside, rfl⟩ := List.getElem?_eq_some_iff.mp here
  have split : entries = entries.take pos ++ entries[pos] :: entries.drop (pos + 1) := by
    rw [List.cons_getElem_drop_succ, List.take_append_drop]
  calc others ep (entries.eraseIdx pos)
      = others ep (entries.take pos ++ entries.drop (pos + 1)) := by
        rw [List.eraseIdx_eq_take_drop_succ]
    _ = others ep (entries.take pos ++ entries[pos] :: entries.drop (pos + 1)) := by
        simp only [others, List.filter_append, List.filter_cons, lost, ne_eq, not_true_eq_false,
          decide_false, Bool.false_eq_true, if_false]
    _ = others ep entries := by rw [← split]

theorem compare_eraseIdx {pos : Nat} (here : entries[pos]? = some e) (named : Compares ep e) :
    (∀ x ∈ entries.eraseIdx pos, Compares ep x) ↔ ∀ x ∈ entries, Compares ep x := by
  obtain ⟨inside, rfl⟩ := List.getElem?_eq_some_iff.mp here
  have whole := List.getElem_cons_eraseIdx_perm inside
  constructor
  · intro left x member
    rcases List.mem_cons.mp (whole.mem_iff.mpr member) with rfl | other
    · exact named
    · exact left x other
  · exact fun all x member => all x (List.mem_of_mem_eraseIdx member)

theorem others_self (none : ∀ e ∈ entries, e.2.ep ≠ ep) : others ep entries = entries := by
  rw [others, List.filter_eq_self]
  intro e member
  simpa using none e member

theorem forall_take_succ {P : Nat × ContactProto → Prop} {pos : Nat} (here : entries[pos]? = some e)
    (passed : ∀ x ∈ entries.take pos, P x) (now : P e) : ∀ x ∈ entries.take (pos + 1), P x := by
  intro x member
  rw [List.take_add_one, here, List.mem_append] at member
  rcases member with before | new
  · exact passed x before
  · obtain rfl : x = e := by simpa using new
    exact now

/-- Behind the first entry every entry is compared and those of the endpoint go. Each erase
starts one more walk over what is left. -/
theorem removeFrom_behind {fuel pos : Nat} (first : Nat × ContactProto)
    (passed : ∀ e ∈ entries.take pos, Compares ep e ∧ e.2.ep ≠ ep)
    (enough : entries.length * (entries.length + 1) + (entries.length - pos) < fuel) :
    removeFrom ep fuel (pos + 1) (first :: entries) =
      if ∀ e ∈ entries, Compares ep e then .ok (first :: others ep entries)
      else .error .assertion := by
  induction fuel generalizing pos entries with
  | zero => omega
  | succ fuel ih =>
    cases here : entries[pos]? with
    | none =>
      have all : entries.take pos = entries :=
        List.take_of_length_le (List.getElem?_eq_none_iff.mp here)
      rw [all] at passed
      rw [removeFrom_end (by simpa using here), if_pos fun e member => (passed e member).1,
        others_self fun e member => (passed e member).2]
    | some e =>
      obtain ⟨inside, at_pos⟩ := List.getElem?_eq_some_iff.mp here
      have here' : (first :: entries)[pos + 1]? = some e := here
      by_cases named : Compares ep e
      · by_cases lost : e.2.ep = ep
        · rw [removeFrom_drop here' named lost, List.eraseIdx_cons_succ, if_neg (by simp)]
          have shorter : (entries.eraseIdx pos).length + 1 = entries.length :=
            List.length_eraseIdx_add_one inside
          have again : removeFrom ep fuel (0 + 1) (first :: entries.eraseIdx pos) =
              if ∀ e ∈ entries.eraseIdx pos, Compares ep e then
                .ok (first :: others ep (entries.eraseIdx pos))
              else .error .assertion := by
            apply ih
            · simp
            · rw [← shorter] at enough
              simp only [Nat.add_mul, Nat.mul_add] at enough ⊢
              omega
          rw [again, others_eraseIdx here lost]
          exact if_congr (compare_eraseIdx here named) rfl rfl
        · rw [removeFrom_keep here' named lost]
          apply ih
          · exact forall_take_succ here passed ⟨named, lost⟩
          · omega
      · rw [removeFrom_unnamed here' named, if_neg]
        exact fun all => named (all e (List.mem_of_getElem? here))

end Loop

/-! ## The call -/

/-- The entries `remove_contact` compares can be compared, and where the first one is of the
lost endpoint, there is a second one and it is not. -/
def Removable (ep : EndpointProto) : List (Nat × ContactProto) → Prop
  | [] => True
  | [e] => Compares ep e ∧ e.2.ep ≠ ep
  | e :: next :: rest => Compares ep e ∧ (∀ x ∈ rest, Compares ep x) ∧
      if e.2.ep = ep then next.2.ep ≠ ep else Compares ep next

/-- Disconnecting works: the walk ends inside the list, and what is left are the entries of
other endpoints. -/
def Removes (b : Bucket) (ep : EndpointProto) : Prop :=
  b.removeContact ep = .ok { b with entries := others ep b.entries }

theorem removes_iff_loop {b : Bucket} {ep : EndpointProto} :
    Removes b ep ↔
      removeFrom ep ((b.entries.length + 1) * (b.entries.length + 1)) 0 b.entries =
        .ok (others ep b.entries) := by
  unfold Removes removeContact
  constructor
  · intro removed
    obtain ⟨left, done, after⟩ := bind_ok_iff.mp removed
    have same := congrArg Bucket.entries (Except.ok.inj after)
    rw [done]
    exact congrArg Except.ok same
  · intro done
    show (removeFrom _ _ _ _ >>= _) = _
    rw [done]
    rfl

section Start

variable {ep : EndpointProto} {fuel : Nat} {e : Nat × ContactProto}
  {tail : List (Nat × ContactProto)}

theorem others_cons_lost (lost : e.2.ep = ep) : others ep (e :: tail) = others ep tail :=
  List.filter_cons_of_neg (by simpa using lost)

theorem others_cons_other (other : e.2.ep ≠ ep) : others ep (e :: tail) = e :: others ep tail :=
  List.filter_cons_of_pos (by simpa using other)

theorem ite_ok_iff {α : Type} {p : Prop} [Decidable p] {a b : α} {f : Fault} :
    (if p then Except.ok a else .error f) = .ok b ↔ p ∧ a = b := by
  by_cases h : p
  · rw [if_pos h, Except.ok.injEq, and_iff_right h]
  · rw [if_neg h]
    exact iff_of_false (by simp) fun both => h both.1

variable (named : Compares ep e)
include named

/-- The first entry stays, and everything behind it is compared. -/
theorem removeFrom_start_keep (enough : tail.length * (tail.length + 1) + tail.length < fuel)
    (other : e.2.ep ≠ ep) :
    removeFrom ep (fuel + 1) 0 (e :: tail) = .ok (others ep (e :: tail)) ↔
      ∀ x ∈ tail, Compares ep x := by
  rw [removeFrom_keep rfl named other, removeFrom_behind e (by simp) (by omega), ite_ok_iff,
    others_cons_other other, and_iff_left rfl]

/-- The first entry goes, and what it leaves in its place is not compared. -/
theorem removeFrom_start_drop {next : Nat × ContactProto}
    (enough : tail.length * (tail.length + 1) + tail.length < fuel) (lost : e.2.ep = ep) :
    removeFrom ep (fuel + 1) 0 (e :: next :: tail) = .ok (others ep (e :: next :: tail)) ↔
      (∀ x ∈ tail, Compares ep x) ∧ next.2.ep ≠ ep := by
  rw [removeFrom_drop rfl named lost, List.eraseIdx_cons_zero, if_neg (List.cons_ne_nil next tail),
    removeFrom_behind next (by simp) (by omega), ite_ok_iff, others_cons_lost lost]
  refine and_congr_right fun _ => ⟨fun same stale => ?_, fun other => (others_cons_other other).symm⟩
  rw [others_cons_lost stale] at same
  exact absurd same (List.cons_ne_self next _)

end Start

/-- `remove_contact` removes the contacts of an endpoint and no others exactly if it does not
have to erase the first entry with nothing, or another of the endpoint's contacts, next to it. -/
theorem removes_iff (b : Bucket) (ep : EndpointProto) : Removes b ep ↔ Removable ep b.entries := by
  rw [removes_iff_loop]
  cases b.entries with
  | nil => exact iff_of_true (removeFrom_end rfl) trivial
  | cons e tail =>
    obtain ⟨fuel, fuels, enough⟩ : ∃ f, (tail.length + 1 + 1) * (tail.length + 1 + 1) = f + 1 ∧
        tail.length * (tail.length + 1) + tail.length < f := by
      refine ⟨(tail.length + 1 + 1) * (tail.length + 1 + 1) - 1, ?_, ?_⟩ <;>
        simp only [Nat.add_mul, Nat.mul_add] <;> omega
    rw [List.length_cons, fuels]
    by_cases named : Compares ep e
    · cases tail with
      | nil =>
        by_cases lost : e.2.ep = ep
        · rw [removeFrom_drop rfl named lost]
          exact iff_of_false (by simp) fun removable => removable.2 lost
        · rw [removeFrom_start_keep named enough lost]
          exact iff_of_true (by simp) ⟨named, lost⟩
      | cons next rest =>
        rw [Removable, and_iff_right named]
        by_cases lost : e.2.ep = ep
        · have fewer : rest.length * (rest.length + 1) + rest.length < fuel := by
            rw [List.length_cons] at enough
            simp only [Nat.add_mul, Nat.mul_add] at enough ⊢
            omega
          rw [removeFrom_start_drop named fewer lost, if_pos lost]
        · rw [removeFrom_start_keep named enough lost, if_neg lost, List.forall_mem_cons, and_comm]
    · rw [removeFrom_unnamed rfl named]
      refine iff_of_false (by simp) fun removable => named ?_
      cases tail with
      | nil => exact removable.1
      | cons next rest => exact removable.1

/-- Where the lost peer is the only contact, the iterator is advanced past `end()`. -/
theorem removeContact_past_end :
    ∃ b, Reached (fun _ => True) "a" b ∧ b.removeContact ⟨"10.0.0.2", "4000"⟩ = .error .undefined ∧
      ¬ Removes b ⟨"10.0.0.2", "4000"⟩ := by
  have peer : EndpointProto.Named ⟨"10.0.0.2", "4000"⟩ := by decide
  have added := @addContact_first .rightFirst 0 0 "b" "a" ⟨"10.0.0.2", "4000"⟩ peer (by decide)
  have past : Bucket.removeContact
      { Bucket.new "a" with
        entries := [((Bucket.new "a").common "b", newContact 0 "b" ⟨"10.0.0.2", "4000"⟩)] }
      ⟨"10.0.0.2", "4000"⟩ = .error .undefined := by
    unfold removeContact
    show (removeFrom _ (3 + 1) 0 [_] >>= _) = _
    rw [removeFrom_drop rfl ⟨peer, peer⟩ rfl]
    rfl
  refine ⟨_, .add .new trivial added, past, fun removes => ?_⟩
  rw [Removes, past] at removes
  cases removes

end Bucket

end MiniDht
