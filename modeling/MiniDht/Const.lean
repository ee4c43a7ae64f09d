import MiniDht.Lib.Cpp
import MiniDht.Proto

/-!
# Constants, keys and comparisons

`miniDHT_const`: sizes, the reading of a key string as a 256-bit id, bit strings and
the comparison operators of the messages. A `std::bitset<SIZE>` is a `BitVec SIZE`.
-/

namespace MiniDht

open Lib

/-- Size in bits of a key (`KEY_SIZE`). -/
def keySize : Nat := 256

/-- Size in bits of a token (`TOKEN_SIZE`). -/
def tokenSize : Nat := 32

/-- Requests issued a round, and contacts in a packet (`ALPHA`). -/
def alpha : Nat := 3

/-- Contacts in a bucket and in a short list (`BUCKET_SIZE`). -/
def bucketSize : Nat := 5

/-- Minutes between two clean-ups, and the age at which a contact is dropped (`PERIODIC`). -/
def periodicMinutes : Nat := 5

/-- Bytes in a digest (`DIGEST_LENGTH`). -/
def digestLength : Nat := 32

/-- The id the asserts on recipients exclude. -/
def zeroId : String :=
  "00000000000000000000000000000000" ++ "00000000000000000000000000000000"

/-! ## Reading keys -/

/-- `isspace` in the C locale, which formatted extraction skips. -/
def isSpace (c : Char) : Bool :=
  c = ' ' || c = '\t' || c = '\n' || c = '\x0b' || c = '\x0c' || c = '\r'

/-- `is >> c`: the next character that is not a space. Once nothing is left every
further extraction fails too. -/
def extract (input : List Char) : Option (Char × List Char) :=
  match input.dropWhile isSpace with
  | [] => none
  | c :: rest => some (c, rest)

/-- The value of a digit in base 16. -/
def hexDigit (c : Char) : Option Nat :=
  if '0' ≤ c ∧ c ≤ '9' then some (c.toNat - '0'.toNat)
  else if 'a' ≤ c ∧ c ≤ 'f' then some (c.toNat - 'a'.toNat + 10)
  else if 'A' ≤ c ∧ c ≤ 'F' then some (c.toNat - 'A'.toNat + 10)
  else none

/-- `strtoul(text, NULL, 16)` on the at most two characters before the first NUL,
kept modulo 256 as the cast to `unsigned char` does. A sign is accepted and a `0x`
without digits reads as its `0`. -/
def strtoul16 : List Char → UInt8
  | [] => 0
  | ['-', d] => 0 - UInt8.ofNat ((hexDigit d).getD 0)
  | ['+', d] => UInt8.ofNat ((hexDigit d).getD 0)
  | c :: rest =>
    match hexDigit c, rest.head? >>= hexDigit with
    | some high, some low => UInt8.ofNat (16 * high + low)
    | some digit, none => UInt8.ofNat digit
    | none, _ => 0

/-- One round of `operator>>` for a digest: two extractions into a zeroed buffer. -/
def readByte (input : List Char) : UInt8 × List Char :=
  match extract input with
  | none => (0, [])
  | some (c, rest) =>
    match extract rest with
    | none => (strtoul16 ([c].takeWhile (· ≠ '\x00')), [])
    | some (d, rest) => (strtoul16 ([c, d].takeWhile (· ≠ '\x00')), rest)

/-- `operator>>`: `n` bytes of a digest. -/
def readDigest : Nat → List Char → List UInt8
  | 0, _ => []
  | n + 1, input => (readByte input).1 :: readDigest n (readByte input).2

/-- A `std::bitset` whose bit `i` has been set to `f i`. -/
def bitset (f : Nat → Bool) : (size : Nat) → BitVec size
  | 0 => 0#0
  | n + 1 => BitVec.cons (f n) (bitset f n)

/-- `digest_to_bitset`: bit `i` of the key is bit `i % 8` of byte `i / 8`. -/
def digestToBitset (size : Nat) (digest : List UInt8) : BitVec size :=
  bitset (fun i => (digest.getD (i / 8 % digestLength) 0).toNat.testBit (i % 8)) size

/-- `string_to_key`. -/
def stringToKey (input : String) : BitVec keySize :=
  digestToBitset keySize (readDigest digestLength input.toList)

/-- `std::hex << value` of one byte, padded to two digits. -/
def byteHex (value : Nat) : List Char :=
  if value < 16 then '0' :: Nat.toDigits 16 value else Nat.toDigits 16 value

/-- `key_to_string`: the bytes of the key from the highest to the lowest. -/
def keyToString (b : BitVec keySize) : String :=
  String.ofList ((List.range (keySize / 8)).reverse.flatMap fun i =>
    byteHex (b.toNat / 256 ^ i % 256))

/-! ## Bit strings -/

/-- The bits of a key, highest first. -/
def bits {size : Nat} (b : BitVec size) : List Char :=
  (List.range size).map fun i => if b.getMsbD i then '1' else '0'

/-- `std::bitset::to_string`. -/
def bitsetToString {size : Nat} (b : BitVec size) : String :=
  String.ofList (bits b)

/-- `common_bits`: how many leading bits two keys share. -/
def commonBits {size : Nat} (k₁ k₂ : BitVec size) : Nat :=
  ((List.range size).find? fun i => k₁.getMsbD i != k₂.getMsbD i).getD size

/-! ## Comparisons of messages -/

/-- `assert` on both parts of an endpoint. -/
def assertNamed (ep : EndpointProto) : Except Fault Unit := do
  assertThat (ep.address ≠ "")
  assertThat (ep.port ≠ "")

theorem assertNamed_named {ep : EndpointProto} (named : ep.Named) : assertNamed ep = .ok () := by
  rw [assertNamed, assertThat_pos named.1, assertThat_pos named.2]
  rfl

/-- `operator==` of endpoints. -/
def EndpointProto.eq (epp₁ epp₂ : EndpointProto) : Except Fault Bool := do
  assertThat (epp₁.address ≠ "")
  assertThat (epp₂.address ≠ "")
  assertThat (epp₁.port ≠ "")
  assertThat (epp₂.port ≠ "")
  if epp₁.address ≠ epp₂.address then return false
  if epp₁.port ≠ epp₂.port then return false
  return true

/-- `operator==` of contacts. -/
def ContactProto.eq (cp₁ cp₂ : ContactProto) : Except Fault Bool := do
  if cp₁.key ≠ cp₂.key then return false
  if !(← cp₁.ep.eq cp₂.ep) then return false
  if cp₁.time.isSome ≠ cp₂.time.isSome then return false
  if cp₁.time.isSome && cp₂.time.isSome then
    if cp₁.time.getD 0 ≠ cp₂.time.getD 0 then return false
  return true

/-- `operator==` of `std::list<contact_proto>`, on lists of one length. -/
def contactsEq : List ContactProto → List ContactProto → Except Fault Bool
  | a :: as, b :: bs => do
    if ← a.eq b then contactsEq as bs else return false
  | _, _ => return true

/-- `operator==` of `std::list`: the lengths are compared first. -/
def contactListEq (as bs : List ContactProto) : Except Fault Bool :=
  if as.length ≠ bs.length then .ok false else contactsEq as bs

/-! ## Time -/

/-- A point in time, in microseconds since 1970 (`boost::posix_time::ptime`). -/
abbrev Ptime := Int

/-- A signed 64-bit integer, as `long long` and `time_t` keep it. -/
def wrap64 (x : Int) : Int := x.bmod (2 ^ 64)

/-- The conversion of an unsigned 64-bit field to a signed one. -/
def toSigned (x : UInt64) : Int := wrap64 x.toNat

/-- `to_time_t`: whole seconds since 1970. -/
def toTimeT (t : Ptime) : Int := t.tdiv 1000000

/-- `boost::posix_time::seconds`: microseconds in 64 bits. -/
def seconds (s : Int) : Int := wrap64 (s * 1000000)

/-- `boost::posix_time::minutes`. -/
def minutes (m : Int) : Int := seconds (60 * m)

/-- `boost::posix_time::from_time_t`. -/
def fromTimeT (t : Int) : Ptime := seconds t

/-- Storing a signed value in an unsigned 64-bit field. -/
def toUnsigned (x : Int) : UInt64 := UInt64.ofInt x

/-- Both conversions after each other change nothing. -/
@[simp] theorem toUnsigned_toSigned (x : UInt64) : toUnsigned (toSigned x) = x := by
  have small : (x.toNat : Int) < 2 ^ 64 := by exact_mod_cast x.toNat_lt
  have same : (x.toNat : Int).bmod (2 ^ 64) % 2 ^ 64 = x.toNat :=
    (@Int.bmod_emod x.toNat (2 ^ 64)).trans (Int.emod_eq_of_lt (Int.natCast_nonneg _) small)
  rw [toUnsigned, toSigned, wrap64, UInt64.ofInt, same, Int.toNat_natCast, UInt64.ofNat_toNat]

/-! ## Endpoints -/

/-- A `boost::asio::ip::tcp::endpoint`; its address prints as a non-empty text. -/
structure Endpoint where
  address : String
  port : UInt16
  printed : address ≠ ""
  deriving DecidableEq

/-- `endpoint_to_proto`. -/
def endpointToProto (ep : Endpoint) : Except Fault EndpointProto := do
  let epp : EndpointProto := { address := ep.address, port := toString ep.port.toNat }
  assertNamed epp
  return epp

/-- The endpoint as messages carry it. -/
def Endpoint.proto (ep : Endpoint) : EndpointProto :=
  { address := ep.address, port := toString ep.port.toNat }

theorem Endpoint.proto_named (ep : Endpoint) : ep.proto.Named :=
  ⟨ep.printed, Nat.repr_ne_empty⟩

theorem endpointToProto_eq (ep : Endpoint) : endpointToProto ep = .ok ep.proto := by
  have named := assertNamed_named ep.proto_named
  rw [Endpoint.proto] at named ⊢
  rw [endpointToProto, named]
  rfl

/-- `string_to_endpoint_pair`: address and port of a text. The address in brackets is cut
one character late and keeps its closing bracket. -/
def stringToEndpointPair (str : String) : Except Fault (String × String) :=
  let chars := str.toList
  match chars.reverse.findIdx? (· = ':') with
  | none => .error (.exception "malformed IP!")
  | some back =>
    let sep := chars.length - 1 - back
    let port := String.ofList ((chars.drop (sep + 1)).take (chars.length - 1))
    if chars.head? = some '[' then
      match chars.findIdx? (· = ']') with
      | none => .error (.exception "malformed IP!")
      | some pos => .ok (String.ofList ((chars.drop 1).take pos), port)
    else .ok (String.ofList (chars.take sep), port)

/-- `endpoint_to_string` of a message's endpoint. -/
def endpointToString (ep : EndpointProto) : String :=
  ep.address ++ ":" ++ ep.port

end MiniDht
