import Mathlib.Logic.Function.Iterate
import MiniDht.Const

/-!
# The local key

`local_key` reads a node's key from a file next to its databases. Where there is no such file
it writes one and calls itself, without asking whether the file could be made: on a disk that
takes no file it never comes back. What it returns it has read, so a later call that finds the
same file returns the same.
-/

namespace MiniDht

open Lib

/-- The computer a node runs on. -/
structure Machine (σ : Type) where
  /-- `std::ifstream`: the characters of a file that can be opened. -/
  opened : σ → String → Option (List Char)
  /-- `std::ofstream`, `<<` and `close`. Nothing tells whether they had an effect. -/
  written : σ → String → String → σ
  /-- `boost::asio::ip::host_name()`, or what its exception says. -/
  hostName : σ → Except String String
  /-- The reading of the clock (`update_time`). -/
  now : σ → Ptime
  /-- `boost::posix_time::to_iso_string`. -/
  isoString : Ptime → String
  /-- SHA-256 (`digest_sum`). -/
  digestSum : List Char → List UInt8

/-- `ifs >> str`: the first word. -/
def firstWord (input : List Char) : List Char :=
  (input.dropWhile isSpace).takeWhile fun c => !isSpace c

/-- The file with the key. -/
def uidFile (port : UInt16) (path : String) : String :=
  path ++ "localhost.uid." ++ toString port.toNat ++ ".txt"

namespace Machine

variable {σ : Type} (M : Machine σ) (size : Nat) (port : UInt16) (path : String)

/-- `digest_key_from_string`. -/
def digestKeyFromString (str : List Char) : BitVec size :=
  digestToBitset size (M.digestSum str)

/-- The text a key is made of: host, port and time. -/
def randomStr (host : String) (now : Ptime) : String :=
  host ++ ":" ++ toString port.toNat ++ ":" ++ M.isoString now

/-- `local_key`, where at most so many calls of it may be open. -/
def localKey : Nat → Act σ (BitVec size)
  | 0 => throw .hang
  | calls + 1 => do
    let s ← get
    match M.opened s (uidFile port path) with
    | some input => return M.digestKeyFromString size (firstWord input)
    | none =>
      match M.hostName s with
      | .error what => throw (.exception what)
      | .ok host =>
        modify fun s => M.written s (uidFile port path) (M.randomStr port host (M.now s))
        localKey calls

/-- An attempt to make the file. -/
def attempt (s : σ) : σ :=
  match M.hostName s with
  | .error _ => s
  | .ok host => M.written s (uidFile port path) (M.randomStr port host (M.now s))

/-- Nothing more is attempted: the file can be opened, or the host has no name. -/
def Decided (s : σ) : Prop :=
  (∃ input, M.opened s (uidFile port path) = some input) ∨ ∃ what, M.hostName s = .error what

/-- The call ends, and what it returns later calls return that find the same file. -/
structure Obtains (s : σ) : Prop where
  ends : ∃ calls, (Act.exec (M.localKey size port path calls) s).1 ≠ .error .hang
  keeps : ∀ calls key s', Act.exec (M.localKey size port path calls) s = (.ok key, s') →
    ∀ t, M.opened t (uidFile port path) = M.opened s' (uidFile port path) →
      ∀ more, Act.exec (M.localKey size port path (more + 1)) t = (.ok key, t)

variable {M size port path} {s : σ}

/-! ## One call -/

theorem exec_localKey_opened {input : List Char} (here : M.opened s (uidFile port path) = some input)
    (calls : Nat) : Act.exec (M.localKey size port path (calls + 1)) s =
      (.ok (M.digestKeyFromString size (firstWord input)), s) := by
  rw [localKey, Act.exec_bind_ok (Act.exec_get s), here]
  rfl

theorem exec_localKey_nameless {what : String} (missing : M.opened s (uidFile port path) = none)
    (nameless : M.hostName s = .error what) (calls : Nat) :
    Act.exec (M.localKey size port path (calls + 1)) s = (.error (.exception what), s) := by
  rw [localKey, Act.exec_bind_ok (Act.exec_get s), missing, nameless]
  rfl

/-- A call that has nothing to read calls itself after one attempt. -/
theorem exec_localKey_attempt (undecided : ¬ M.Decided port path s) (calls : Nat) :
    Act.exec (M.localKey size port path (calls + 1)) s =
      Act.exec (M.localKey size port path calls) (M.attempt port path s) := by
  obtain ⟨missing, named⟩ := not_or.mp undecided
  have none : M.opened s (uidFile port path) = none :=
    Option.eq_none_iff_forall_ne_some.mpr (not_exists.mp missing)
  rw [localKey, Act.exec_bind_ok (Act.exec_get s), none, attempt]
  cases host : M.hostName s with
  | error what => exact absurd ⟨what, host⟩ named
  | ok host => exact Act.exec_bind_ok (Act.exec_modify _ s)

/-- How a call can go. -/
theorem call_cases (M : Machine σ) (port : UInt16) (path : String) (s : σ) :
    (∃ input, M.opened s (uidFile port path) = some input) ∨
      (M.opened s (uidFile port path) = none ∧ ∃ what, M.hostName s = .error what) ∨
      ¬ M.Decided port path s := by
  cases here : M.opened s (uidFile port path) with
  | some input => exact .inl ⟨input, rfl⟩
  | none =>
    by_cases nameless : ∃ what, M.hostName s = .error what
    · exact .inr (.inl ⟨rfl, nameless⟩)
    · refine .inr (.inr (not_or.mpr ⟨?_, nameless⟩))
      rintro ⟨input, found⟩
      rw [here] at found
      cases found

/-! ## All calls -/

theorem localKey_ends_of_decided (decided : M.Decided port path s) (calls : Nat) :
    (Act.exec (M.localKey size port path (calls + 1)) s).1 ≠ .error .hang := by
  rcases M.call_cases port path s with ⟨input, here⟩ | ⟨missing, what, nameless⟩ | undecided
  · rw [exec_localKey_opened here]
    exact fun same => by cases same
  · rw [exec_localKey_nameless missing nameless]
    exact fun same => by cases same
  · exact absurd decided undecided

/-- After as many attempts as it takes the call ends. -/
theorem localKey_ends {n : Nat} (decided : M.Decided port path ((M.attempt port path)^[n] s)) :
    (Act.exec (M.localKey size port path (n + 1)) s).1 ≠ .error .hang := by
  induction n generalizing s with
  | zero => exact localKey_ends_of_decided decided 0
  | succ n ih =>
    by_cases now : M.Decided port path s
    · exact localKey_ends_of_decided now (n + 1)
    · rw [exec_localKey_attempt now]
      exact ih decided

/-- As long as no attempt has an effect that shows, it does not. -/
theorem localKey_hangs (never : ∀ n, ¬ M.Decided port path ((M.attempt port path)^[n] s)) (calls : Nat) :
    (Act.exec (M.localKey size port path calls) s).1 = .error .hang := by
  induction calls generalizing s with
  | zero => rfl
  | succ calls ih =>
    have undecided : ¬ M.Decided port path s := never 0
    rw [exec_localKey_attempt undecided]
    exact ih fun n => never (n + 1)

/-- What is returned has been read from the file. -/
theorem localKey_read {calls : Nat} {key : BitVec size} {s' : σ}
    (run : Act.exec (M.localKey size port path calls) s = (.ok key, s')) :
    ∃ input, M.opened s' (uidFile port path) = some input ∧
      key = M.digestKeyFromString size (firstWord input) := by
  induction calls generalizing s with
  | zero => cases run
  | succ calls ih =>
    rcases M.call_cases port path s with ⟨input, here⟩ | ⟨missing, what, nameless⟩ | undecided
    · rw [exec_localKey_opened here] at run
      cases run
      exact ⟨input, here, rfl⟩
    · rw [exec_localKey_nameless missing nameless] at run
      cases run
    · rw [exec_localKey_attempt undecided] at run
      exact ih run

theorem obtains_of_decided {n : Nat} (decided : M.Decided port path ((M.attempt port path)^[n] s)) :
    M.Obtains size port path s where
  ends := ⟨n + 1, localKey_ends decided⟩
  keeps calls key s' run t same more := by
    obtain ⟨input, read, rfl⟩ := localKey_read run
    exact exec_localKey_opened (same.trans read) more

theorem Obtains.decided (obtains : M.Obtains size port path s) :
    ∃ n, M.Decided port path ((M.attempt port path)^[n] s) := by
  by_contra never
  obtain ⟨calls, ends⟩ := obtains.ends
  exact ends (localKey_hangs (not_exists.mp never) calls)

/-- **The local key.** It is obtained, and stays the same as long as the file does, if and
only if after some number of attempts the file can be opened or the host has no name. -/
theorem obtains_iff (M : Machine σ) (size : Nat) (port : UInt16) (path : String) (s : σ) :
    M.Obtains size port path s ↔ ∃ n, M.Decided port path ((M.attempt port path)^[n] s) :=
  ⟨Obtains.decided, fun ⟨_, decided⟩ => obtains_of_decided decided⟩

/-! ## A disk -/

/-- The files of a disk, and whether it takes others. -/
structure Disk where
  files : String → Option (List Char)
  writable : Bool

/-- A computer with such a disk. -/
def disk : Machine Disk where
  opened d name := d.files name
  written d name text :=
    if d.writable then { d with files := Function.update d.files name (some text.toList) } else d
  hostName _ := .ok "localhost"
  now _ := 0
  isoString _ := "19700101T000000"
  digestSum _ := List.replicate digestLength 0

/-- There the file has to be present, or possible to create. -/
theorem disk_obtains_iff {d : Disk} : disk.Obtains size port path d ↔
    (∃ input, d.files (uidFile port path) = some input) ∨ d.writable = true := by
  constructor
  · intro obtains
    obtain ⟨n, decided⟩ := obtains.decided
    by_cases writable : d.writable = true
    · exact .inr writable
    · have same : disk.attempt port path d = d := if_neg writable
      rw [Function.iterate_fixed same] at decided
      rcases decided with present | ⟨what, nameless⟩
      · exact .inl present
      · cases nameless
  · rintro (present | writable)
    · exact obtains_of_decided (n := 0) (.inl present)
    · refine obtains_of_decided (n := 1) (.inl ⟨(disk.randomStr port "localhost" 0).toList, ?_⟩)
      show (if d.writable then _ else d : Disk).files _ = _
      rw [if_pos writable]
      exact Function.update_self ..

/-- On a disk that takes no file, and has none, the calls go on for ever. -/
theorem disk_not_obtains : ¬ disk.Obtains keySize 4000 "" { files := fun _ => none, writable := false } := by
  rw [disk_obtains_iff]
  rintro (⟨input, present⟩ | writable)
  · cases present
  · cases writable

end Machine

end MiniDht
