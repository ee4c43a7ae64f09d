import MiniDht.Clock
import MiniDht.Session.Broken

/-!
# The bound of a header

What a header announces is read by `atoi` from eight bytes of a peer's choice, and goes
through an `int` and a `size_t`. A body is asked for only where it fits the rest of the
buffer, so no session ever reads over the end of it.
-/

namespace MiniDht

/-! ## What `atoi` reads -/

theorem decimal_cons (c : Char) (digits : List Char) :
    decimal (c :: digits) = 10 ^ digits.length * (c.toNat - '0'.toNat) + decimal digits :=
  Nat.ofDigitChars_cons.trans <| by
    rw [Nat.ofDigitChars_eq_ofDigitChars_zero, Nat.mul_zero, Nat.zero_add]
    rfl

theorem digit_le {c : Char} (digit : c.isDigit = true) : c.toNat - '0'.toNat ≤ 9 := by
  rw [Char.isDigit, Bool.and_eq_true, decide_eq_true_iff, decide_eq_true_iff] at digit
  have high : c.toNat ≤ 57 := digit.2
  have zero : '0'.toNat = 48 := rfl
  omega

theorem decimal_lt {digits : List Char} (all : ∀ c ∈ digits, c.isDigit = true) :
    decimal digits < 10 ^ digits.length := by
  induction digits with
  | nil => decide
  | cons c digits ih =>
    have rest : decimal digits < 10 ^ digits.length := ih fun c mem => all c (List.mem_cons_of_mem _ mem)
    have first : c.toNat - '0'.toNat ≤ 9 := digit_le (all c List.mem_cons_self)
    calc decimal (c :: digits)
        = 10 ^ digits.length * (c.toNat - '0'.toNat) + decimal digits := decimal_cons c digits
      _ < 10 ^ digits.length * 9 + 10 ^ digits.length :=
        Nat.add_lt_add_of_le_of_lt (Nat.mul_le_mul_left _ first) rest
      _ = 10 ^ (c :: digits).length := by
        rw [List.length_cons, Nat.pow_succ]
        omega

/-- The digits a text starts with. -/
theorem decimal_takeWhile_lt {text : List Char} {n : Nat} (short : text.length ≤ n) :
    decimal (text.takeWhile Char.isDigit) < 10 ^ n := by
  have digits : ∀ c ∈ text.takeWhile Char.isDigit, c.isDigit = true :=
    List.all_eq_true.mp List.all_takeWhile
  have fewer : (text.takeWhile Char.isDigit).length ≤ n :=
    (List.takeWhile_sublist _).length_le.trans short
  exact (decimal_lt digits).trans_le (Nat.pow_le_pow_right (by decide) fewer)

/-- Eight characters hold no number of nine digits, with a sign or without. -/
theorem natAbs_atoi_lt {text : List Char} {n : Nat} (short : text.length ≤ n) :
    (atoi text).natAbs < 10 ^ n := by
  have rest : (text.dropWhile isSpace).length ≤ n :=
    (List.dropWhile_sublist _).length_le.trans short
  unfold atoi
  split
  next tail minus =>
    rw [minus, List.length_cons] at rest
    rw [Int.natAbs_neg, Int.natAbs_natCast]
    exact decimal_takeWhile_lt (by omega)
  next tail plus =>
    rw [plus, List.length_cons] at rest
    rw [Int.natAbs_natCast]
    exact decimal_takeWhile_lt (by omega)
  next =>
    rw [Int.natAbs_natCast]
    exact decimal_takeWhile_lt rest

theorem length_columnsText_le (bytes : List UInt8) : (columnsText bytes).length ≤ 8 := by
  rw [columnsText, List.length_map]
  exact (List.takeWhile_sublist _).length_le.trans (List.length_take_le 8 bytes)

/-! ## From an `int` to a `size_t` -/

/-- A negative number becomes a huge one. -/
theorem toNat_toUnsigned_neg {x : Int} (low : -2 ^ 64 ≤ x) (negative : x < 0) :
    ((toUnsigned x).toNat : Int) = x + 2 ^ 64 := by
  have wraps : x % 2 ^ 64 = x + 2 ^ 64 := by
    rw [← Int.add_emod_right]
    exact Int.emod_eq_of_lt (by omega) (by omega)
  have fits : (x + 2 ^ 64).toNat < 2 ^ 64 := by omega
  rw [toUnsigned, UInt64.ofInt, wraps, UInt64.toNat_ofNat_of_lt' fits, Int.toNat_of_nonneg (by omega)]

namespace BasicMessage

variable {packetSize : Nat}

/-- What the header announces, as `decode_header` compares it. -/
theorem announced_le_iff (range : 16 ≤ packetSize ∧ packetSize ≤ 10 ^ 8) (header : List UInt8) :
    (toUnsigned (atoi (columnsText header))).toNat ≤ maxBodyLength packetSize ↔
      0 ≤ atoi (columnsText header) ∧ atoi (columnsText header) ≤ (packetSize : Int) - 16 := by
  have size : maxBodyLength packetSize = packetSize - 16 := rfl
  have short : (atoi (columnsText header)).natAbs < 10 ^ 8 := natAbs_atoi_lt (length_columnsText_le header)
  rcases lt_or_ge (atoi (columnsText header)) 0 with negative | whole
  · have huge := toNat_toUnsigned_neg (by omega) negative
    omega
  · have same := toNat_toUnsigned whole (by omega)
    omega

theorem decodeHeader_of_le {m : BasicMessage}
    (fits : (toUnsigned (atoi (columnsText m.header))).toNat ≤ maxBodyLength packetSize) :
    (m.decodeHeader packetSize).1 = true ∧ (m.decodeHeader packetSize).2.bodyLength =
      (toUnsigned (atoi (columnsText m.header))).toNat := by
  simp only [decodeHeader, if_neg (Nat.not_lt.mpr fits), and_self]

theorem decodeHeader_of_lt {m : BasicMessage}
    (exceeds : maxBodyLength packetSize < (toUnsigned (atoi (columnsText m.header))).toNat) :
    (m.decodeHeader packetSize).1 = false ∧ (m.decodeHeader packetSize).2.bodyLength = 0 := by
  simp only [decodeHeader, if_pos exceeds, and_self]

/-- After `decode_header` header and body fit the buffer, whatever it returns. -/
theorem decodeHeader_within (room : 16 ≤ packetSize) (m : BasicMessage) :
    headerLength + (m.decodeHeader packetSize).2.bodyLength ≤ packetSize := by
  have size : maxBodyLength packetSize = packetSize - 16 := rfl
  unfold headerLength
  rcases Nat.lt_or_ge (maxBodyLength packetSize) (toUnsigned (atoi (columnsText m.header))).toNat with exceeds | fits
  · rw [(decodeHeader_of_lt exceeds).2]
    omega
  · rw [(decodeHeader_of_le fits).2]
    omega

/-- **The header.** Sixteen bytes of any kind are either refused, and then there is no body,
or announce a body that fits the buffer. They are accepted if and only if the number in the
first eight lies between zero and what is left of the buffer. -/
theorem decodeHeader_bound (range : 16 ≤ packetSize ∧ packetSize ≤ 10 ^ 8) (m : BasicMessage) :
    ((m.decodeHeader packetSize).1 = false ∧ (m.decodeHeader packetSize).2.bodyLength = 0 ∨
      (m.decodeHeader packetSize).1 = true ∧
        headerLength + (m.decodeHeader packetSize).2.bodyLength ≤ packetSize) ∧
    ((m.decodeHeader packetSize).1 = true ↔
      0 ≤ atoi (columnsText m.header) ∧ atoi (columnsText m.header) ≤ (packetSize : Int) - 16) := by
  rw [← announced_le_iff range]
  rcases Nat.lt_or_ge (maxBodyLength packetSize) (toUnsigned (atoi (columnsText m.header))).toNat with exceeds | fits
  · obtain ⟨refused, none⟩ := decodeHeader_of_lt exceeds
    refine ⟨.inl ⟨refused, none⟩, iff_of_false ?_ (Nat.not_le.mpr exceeds)⟩
    rw [refused]
    exact Bool.false_ne_true
  · obtain ⟨accepted, -⟩ := decodeHeader_of_le fits
    exact ⟨.inr ⟨accepted, decodeHeader_within range.1 m⟩, iff_of_true accepted fits⟩

/-- The theorem at a header with a sign. -/
theorem decodeHeader_bound_negative :
    ({ header := columns (-1) ++ columns 4000 : BasicMessage }.decodeHeader (1024 * 1024)).1 = false := by
  have bound := @decodeHeader_bound (1024 * 1024) (by decide)
    { header := columns (-1) ++ columns 4000 }
  have negative : ¬ 0 ≤ atoi (columnsText (columns (-1) ++ columns 4000)) := by decide
  rw [← Bool.not_eq_true, bound.2]
  exact fun whole => negative whole.1

end BasicMessage

/-! ## The buffer of a session -/

namespace Session

variable {packetSize : Nat} {s s' : Session}

/-- `read_msg_`, which keeps the buffer it was made with, announces no more than fits it. -/
def Within (packetSize : Nat) (s : Session) : Prop :=
  headerLength + s.readMsg.bodyLength ≤ packetSize

theorem within_of_readMsg (same : s'.readMsg = s.readMsg) (within : s.Within packetSize) :
    s'.Within packetSize := by
  rw [Within, same]
  exact within

theorem readMsg_release (s : Session) : s.release.readMsg = s.readMsg := by
  rw [release_eq]

theorem readMsg_deliver (s : Session) (msg : BasicMessage) : (s.deliver msg).readMsg = s.readMsg := by
  simp only [deliver]
  split <;> rfl

theorem readMsg_written (s : Session) : s.written.readMsg = s.readMsg := by
  unfold written
  split <;> rfl

/-- A header that has been read, and one that has not. -/
theorem within_header (room : 16 ≤ packetSize) (within : s.Within packetSize) (bytes : HeaderBytes)
    (attached : Bool) : (s.handleReadHeader packetSize bytes attached).Within packetSize := by
  have decoded (bytes : List UInt8) : (s.drop.decoded packetSize bytes).2.Within packetSize :=
    BasicMessage.decodeHeader_within room _
  have ends {s₁ : Session} (within : s₁.Within packetSize) :
      s₁.disconnected.release.Within packetSize :=
    within_of_readMsg (readMsg_release _) within
  rw [handleReadHeader]
  cases bytes with
  | none => exact ends within
  | some bytes =>
    rw [headerRead]
    by_cases fits : (s.drop.decoded packetSize bytes.val).1 = true
    · simp only [if_pos fits]
      cases (s.drop.decoded packetSize bytes.val).2.announced attached with
      | none => exact ends (decoded bytes.val)
      | some ep => exact decoded bytes.val
    · simp only [if_neg fits]
      exact ends (decoded bytes.val)

theorem within_step (room : 16 ≤ packetSize) (within : s.Within packetSize) {e : Event}
    (stepped : s.step packetSize e = some s') : s'.Within packetSize := by
  cases e with
  | deliver msg =>
    cases stepped
    exact within_of_readMsg (readMsg_deliver s msg) within
  | connected error =>
    obtain ⟨-, ends⟩ := of_completes stepped
    cases ends
    cases error with
    | true => exact within_of_readMsg (readMsg_release _) within
    | false => exact within
  | header bytes attached =>
    obtain ⟨-, ends⟩ := of_completes stepped
    cases ends
    exact within_header (s := { s with pending := s.pending.erase .readHeader }) room within bytes attached
  | body bytes =>
    obtain ⟨-, ends⟩ := of_completes stepped
    obtain ⟨-, -, ends⟩ := Option.bind_eq_some_iff.mp ends
    cases ends
    cases bytes with
    | none => exact within_of_readMsg (readMsg_release _) within
    | some bytes => exact within
  | handled threw =>
    obtain ⟨-, ends⟩ := of_completes stepped
    cases ends
    cases threw with
    | true => exact within
    | false => exact within
  | written error =>
    obtain ⟨-, ends⟩ := of_completes stepped
    cases ends
    cases error with
    | true => exact within_of_readMsg (readMsg_release _) within
    | false => exact within_of_readMsg (readMsg_written _) within

theorem Lived.within (room : 16 ≤ packetSize) {steps : List (Session × Event)}
    (lived : Lived packetSize steps s) : s.Within packetSize := by
  induction lived with
  | created | accepted | connecting => exact room
  | step lived stepped ih => exact within_step room ih stepped

end Session

/-- Whatever arrives, no session of a node is ever asked to read over the end of its buffer. -/
theorem Registry.Ran.within {packetSize : Nat} (room : 16 ≤ packetSize)
    {steps : List (Registry × Arrival)} {r : Registry} (ran : Registry.Ran packetSize steps r) :
    ∀ s ∈ r.sessions, s.Within packetSize := by
  intro s mem
  obtain ⟨i, here⟩ := List.mem_iff_getElem?.mp mem
  obtain ⟨past, lived, -⟩ := ran_lived ran here
  exact lived.within room

end MiniDht
