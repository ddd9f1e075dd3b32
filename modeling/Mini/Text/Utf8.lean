import Mini.Text.Hex
import Mini.Text.Numeral

/-!
# Reading UTF-8

The characters of a byte sequence, or the place of the first bytes that no
UTF-8 text holds there. The reader goes byte by byte; inside a character it
knows how many bytes are owed and between which bounds the next one must lie,
which rules out overlong forms, surrogates and code points above the last one
at the second byte already.
-/

namespace Mini.Text.Utf8

/-- Why bytes are not text. -/
inductive Reason
  | invalidStart
  | invalidContinuation
  | endOfData
  deriving DecidableEq, Repr

/-- The first undecodable bytes: `count` of them, the first of value `byte` at
`position`. -/
structure Fault where
  byte : Nat
  position : Nat
  count : Nat
  reason : Reason
  deriving DecidableEq, Repr

/-- A character that has begun: its first byte and that byte's position, the
number of bytes taken, the bits so far, the number of bytes owed, and the bounds
of the next byte. -/
structure Pending where
  byte : Nat
  position : Nat
  taken : Nat
  bits : Nat
  owed : Nat
  low : Nat
  high : Nat

/-- The fault of a character that cannot go on. -/
def Pending.fault (p : Pending) (reason : Reason) : Fault :=
  ⟨p.byte, p.position, p.taken, reason⟩

/-- What the first byte of a longer character promises. -/
def Pending.ofByte? (position b : Nat) : Option Pending :=
  if b < 0xC2 then none
  else if b < 0xE0 then some ⟨b, position, 1, b - 0xC0, 1, 0x80, 0xBF⟩
  else if b < 0xF0 then
    let low := if b = 0xE0 then 0xA0 else 0x80
    let high := if b = 0xED then 0x9F else 0xBF
    some ⟨b, position, 1, b - 0xE0, 2, low, high⟩
  else if b < 0xF5 then
    let low := if b = 0xF0 then 0x90 else 0x80
    let high := if b = 0xF4 then 0x8F else 0xBF
    some ⟨b, position, 1, b - 0xF0, 3, low, high⟩
  else none

/-- The characters of the bytes from `position` on, inside a character if one has
begun. -/
def decodeFrom (position : Nat) (pending : Option Pending) :
    List UInt8 → Except Fault (List Char)
  | [] =>
      match pending with
      | none => .ok []
      | some p => .error (p.fault .endOfData)
  | b :: rest =>
      let n := b.toNat
      match pending with
      | none =>
          if n < 0x80 then (Char.ofNat n :: ·) <$> decodeFrom (position + 1) none rest
          else
            match Pending.ofByte? position n with
            | none => .error ⟨n, position, 1, .invalidStart⟩
            | some p => decodeFrom (position + 1) (some p) rest
      | some p =>
          if n < p.low || p.high < n then .error (p.fault .invalidContinuation)
          else
            let bits := p.bits * 0x40 + (n - 0x80)
            if p.owed = 1 then (Char.ofNat bits :: ·) <$> decodeFrom (position + 1) none rest
            else
              decodeFrom (position + 1)
                (some { p with
                  taken := p.taken + 1, bits := bits, owed := p.owed - 1, low := 0x80, high := 0xBF })
                rest

/-- The characters of a byte sequence. -/
def decode (bytes : List UInt8) : Except Fault (List Char) :=
  decodeFrom 0 none bytes

/-- The wording of a reason. -/
def Reason.text : Reason → String
  | .invalidStart => "invalid start byte"
  | .invalidContinuation => "invalid continuation byte"
  | .endOfData => "unexpected end of data"

/-- The wording of a fault: one byte is shown, several are given by their
positions. -/
def Fault.message (f : Fault) : String :=
  let place :=
    if f.count = 1 then
      "byte 0x" ++ String.ofList (hex 2 f.byte) ++ " in position " ++ natText f.position
    else
      "bytes in position " ++ natText f.position ++ "-" ++ natText (f.position + f.count - 1)
  "'utf-8' codec can't decode " ++ place ++ ": " ++ f.reason.text

end Mini.Text.Utf8
