import MiniDht.Const

/-!
# Frames

`basic_message`: a frame is a header of 16 bytes and a body. The header gives the length of
the body and the port its sender listens on, in eight columns each. `PACKET_SIZE`, the size
of the buffer a frame is read into, is a parameter.
-/

namespace MiniDht

/-- The digits of a decimal number. -/
def decimal (digits : List Char) : Nat :=
  digits.foldl (fun n c => 10 * n + (c.toNat - '0'.toNat)) 0

/-- `atoi`: spaces, a sign, and the digits up to the first character that is none. -/
def atoi (text : List Char) : Int :=
  match text.dropWhile isSpace with
  | '-' :: rest => -decimal (rest.takeWhile Char.isDigit)
  | '+' :: rest => decimal (rest.takeWhile Char.isDigit)
  | rest => decimal (rest.takeWhile Char.isDigit)

/-- `sprintf("%8d")`, of which eight characters are copied. -/
def columns (n : Int) : List UInt8 :=
  (((toString n).toList.leftpad 8 ' ').take 8).map fun c => .ofNat c.toNat

theorem length_columns (n : Int) : (columns n).length = 8 := by
  rw [columns, List.length_map, List.length_take, List.length_leftpad]
  omega

/-- The text of eight bytes of a header. `strncat` stops at a NUL. -/
def columnsText (bytes : List UInt8) : List Char :=
  ((bytes.take 8).takeWhile (· ≠ 0)).map fun b => .ofNat b.toNat

/-- `header_length`. -/
def headerLength : Nat := 16

/-- `basic_message<PACKET_SIZE>`. Of the buffer there is what has been written to its header
and to its body. -/
structure BasicMessage where
  header : List UInt8 := []
  body : List UInt8 := []
  bodyLength : Nat := 0
  listenPort : UInt16 := 0
  deriving DecidableEq

namespace BasicMessage

/-- `max_body_length`. -/
def maxBodyLength (packetSize : Nat) : Nat := packetSize - headerLength

/-- `decode_header()`. An `int` goes into a `size_t`, so a negative length is a large one. -/
def decodeHeader (packetSize : Nat) (m : BasicMessage) : Bool × BasicMessage :=
  let bodyLength := (toUnsigned (atoi (columnsText m.header))).toNat
  let listenPort := UInt16.ofInt (atoi (columnsText (m.header.drop 8)))
  if maxBodyLength packetSize < bodyLength then
    (false, { m with bodyLength := 0, listenPort := listenPort })
  else (true, { m with bodyLength := bodyLength, listenPort := listenPort })

/-- `encode_header()`. The length goes through an `int`. -/
def encodeHeader (m : BasicMessage) : BasicMessage :=
  { m with header := columns ((m.bodyLength : Int).bmod (2 ^ 32)) ++ columns m.listenPort.toNat }

theorem length_header (m : BasicMessage) : m.encodeHeader.header.length = headerLength := by
  simp [encodeHeader, length_columns, headerLength]

/-- The frame `send_MESSAGE` makes of a serialized message. What it copies over the end of
the buffer is left out. -/
def frame (packetSize : Nat) (listenPort : UInt16) (bytes : List UInt8) : BasicMessage :=
  let bodyLength := min bytes.length (maxBodyLength packetSize)
  encodeHeader { body := bytes.take bodyLength, bodyLength := bodyLength, listenPort := listenPort }

end BasicMessage

end MiniDht
