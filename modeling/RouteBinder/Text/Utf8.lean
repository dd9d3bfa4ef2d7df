import RouteBinder.Text.Lines

/-!
# RouteBinder.Text.Utf8

**Bytes that are meant to be UTF-8.** A character begins with a byte that says how many bytes follow, and
what bounds the first of them has. `Pending` is a character that has begun.

* `lossy` reads bytes whatever they are: a replacement character stands for each longest beginning of a
  character that is not gone on with, and for each byte that begins none. What a command writes to its error
  stream is only shown, so it is read in this way.
* `complaint` says where bytes stop being UTF-8, and why.
-/

namespace RouteBinder.Text.Utf8

/-- A character that has begun: how many bytes are missing, what the bytes so far stand for, and the
bounds of the next byte. -/
structure Pending where
  missing : Nat
  code : Nat
  low : Nat := 0x80
  high : Nat := 0xBF
  deriving DecidableEq, Repr

/-- What stands for bytes that are no character. -/
def replacement : Char := '\uFFFD'

/-- The character that begins with a byte. The bounds of the second byte leave out what is written with
fewer bytes, the halves of surrogate pairs, and what is no code point at all. -/
def begin? (byte : Nat) : Option Pending :=
  if byte < 0x80 then some { missing := 0, code := byte }
  else if byte < 0xC2 then none
  else if byte < 0xE0 then some { missing := 1, code := byte - 0xC0 }
  else if byte == 0xE0 then some { missing := 2, code := 0, low := 0xA0 }
  else if byte == 0xED then some { missing := 2, code := 0xD, high := 0x9F }
  else if byte < 0xF0 then some { missing := 2, code := byte - 0xE0 }
  else if byte == 0xF0 then some { missing := 3, code := 0, low := 0x90 }
  else if byte < 0xF4 then some { missing := 3, code := byte - 0xF0 }
  else if byte == 0xF4 then some { missing := 3, code := 4, high := 0x8F }
  else none

/-- The character with one byte more, if that byte goes on with it. -/
def Pending.continue? (pending : Pending) (byte : Nat) : Option Pending :=
  if pending.low ≤ byte && byte ≤ pending.high then
    some { missing := pending.missing - 1, code := pending.code * 0x40 + (byte - 0x80) }
  else none

/-- What a byte that begins a character, or none, amounts to. -/
def first (byte : Nat) : List Char × Option Pending :=
  match begin? byte with
  | none => ([replacement], none)
  | some pending =>
    if pending.missing == 0 then ([Char.ofNat pending.code], none) else ([], some pending)

/-- What a byte amounts to behind the beginning of a character. -/
def next (pending : Pending) (byte : Nat) : List Char × Option Pending :=
  match pending.continue? byte with
  | none => (replacement :: (first byte).1, (first byte).2)
  | some pending =>
    if pending.missing == 0 then ([Char.ofNat pending.code], none) else ([], some pending)

/-- The characters that bytes stand for, behind the beginning of a character if there is one. -/
def characters : Option Pending → List UInt8 → List Char
  | none, [] => []
  | some _, [] => [replacement]
  | none, byte :: rest =>
    let (read, pending) := first byte.toNat
    read ++ characters pending rest
  | some pending, byte :: rest =>
    let (read, pending) := next pending byte.toNat
    read ++ characters pending rest

/-- The text that bytes stand for. -/
def lossy (bytes : ByteArray) : String := String.ofList (characters none bytes.toList)

/-! ### Complaints -/

/-- What is wrong with bytes that are no character. -/
inductive Fault where
  | start | continuation | ending
  deriving DecidableEq, Repr

def Fault.text : Fault → String
  | .start => "invalid start byte"
  | .continuation => "invalid continuation byte"
  | .ending => "unexpected end of data"

/-- The first bytes that are no character, and how many bytes are in front of them. -/
structure Misfit where
  position : Nat
  bytes : List UInt8
  fault : Fault
  deriving DecidableEq, Repr

/-- The first misfit among bytes, where a character has perhaps begun at the position. -/
def misfit? (position : Nat) : Option (Pending × List UInt8) → List UInt8 → Option Misfit
  | none, [] => none
  | some (_, begun), [] => some ⟨position, begun, .ending⟩
  | none, byte :: rest =>
    match begin? byte.toNat with
    | none => some ⟨position, [byte], .start⟩
    | some pending =>
      if pending.missing == 0 then misfit? (position + 1) none rest
      else misfit? position (some (pending, [byte])) rest
  | some (pending, begun), byte :: rest =>
    match pending.continue? byte.toNat with
    | none => some ⟨position, begun, .continuation⟩
    | some pending =>
      if pending.missing == 0 then misfit? (position + begun.length + 1) none rest
      else misfit? position (some (pending, begun ++ [byte])) rest

/-- A byte as two hexadecimal digits. -/
def hexOf (byte : UInt8) : String :=
  String.ofList [Nat.digitChar (byte.toNat / 16), Nat.digitChar (byte.toNat % 16)]

/-- Which bytes are meant: the one there is, or the first and the last of them. -/
def Misfit.place (misfit : Misfit) : String :=
  match misfit.bytes with
  | [byte] => "byte 0x" ++ hexOf byte ++ " in position " ++ toString misfit.position
  | bytes =>
    "bytes in position " ++ toString misfit.position ++ "-" ++
      toString (misfit.position + bytes.length - 1)

def Misfit.text (misfit : Misfit) : String :=
  "\x27utf-8\x27 codec can\x27t decode " ++ misfit.place ++ ": " ++ misfit.fault.text

/-- Why bytes cannot be read; nothing when they can. -/
def complaint (bytes : List UInt8) : String := ((misfit? 0 none bytes).map Misfit.text).getD ""

end RouteBinder.Text.Utf8
