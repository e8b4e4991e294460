import Whitespace.Text.Number

/-!
# UTF-8

Bytes are decoded to characters, or refused with the place and length of the first sequence that is
no character. Overlong sequences, halves of surrogate pairs and codes beyond the last character are
refused at their second byte.
-/

namespace Whitespace.Utf8

inductive Problem where
  /-- No character starts with this byte. -/
  | start
  /-- A byte inside the sequence does not continue it. -/
  | continuation
  /-- The bytes end inside the sequence. -/
  | endOfData
deriving DecidableEq, Repr

/-- The first sequence of bytes that is no character. -/
structure Fault where
  problem : Problem
  /-- The number of bytes before the sequence. -/
  position : Nat
  /-- The number of bytes in the sequence, up to the first that is at fault. -/
  length : Nat
  /-- The first byte of the sequence. -/
  byte : UInt8
deriving DecidableEq, Repr

namespace Fault

def message (f : Fault) : String :=
  let place :=
    if f.length = 1 then
      "byte 0x" ++ String.ofList (Text.hexDigits 2 f.byte.toNat) ++ " in position " ++
        Decimal.ofNat f.position
    else
      "bytes in position " ++ Decimal.ofNat f.position ++ "-" ++
        Decimal.ofNat (f.position + f.length - 1)
  let reason :=
    match f.problem with
    | .start => "invalid start byte"
    | .continuation => "invalid continuation byte"
    | .endOfData => "unexpected end of data"
  "'utf-8' codec can't decode " ++ place ++ ": " ++ reason

end Fault

def isContinuation (b : UInt8) : Bool :=
  0x80 ≤ b && b ≤ 0xBF

/-- The least and the greatest byte that may come second, after a first one. -/
def secondRange (first : UInt8) : UInt8 × UInt8 :=
  if first = 0xE0 then (0xA0, 0xBF)
  else if first = 0xED then (0x80, 0x9F)
  else if first = 0xF0 then (0x90, 0xBF)
  else if first = 0xF4 then (0x80, 0x8F)
  else (0x80, 0xBF)

/-- Whether a byte may come second, after a first one. -/
def isSecond (first b : UInt8) : Bool :=
  (secondRange first).1 ≤ b && b ≤ (secondRange first).2

/-- The six bits that a byte adds to a code. -/
def payload (b : UInt8) : Nat :=
  b.toNat % 0x40

/-- Decodes bytes that come after `position` others. -/
def decodeFrom (position : Nat) : List UInt8 → Except Fault (List Char)
  | [] => .ok []
  | a :: bytes =>
    let refuse (problem : Problem) (length : Nat) : Except Fault (List Char) :=
      .error ⟨problem, position, length, a⟩
    if a < 0x80 then
      (decodeFrom (position + 1) bytes).map (Char.ofNat a.toNat :: ·)
    else if a < 0xC2 ∨ 0xF4 < a then refuse .start 1
    else
      match bytes with
      | [] => refuse .endOfData 1
      | b :: bytes =>
        if !isSecond a b then refuse .continuation 1
        else if a < 0xE0 then
          (decodeFrom (position + 2) bytes).map
            (Char.ofNat (a.toNat % 0x20 * 0x40 + payload b) :: ·)
        else
          match bytes with
          | [] => refuse .endOfData 2
          | c :: bytes =>
            if !isContinuation c then refuse .continuation 2
            else if a < 0xF0 then
              (decodeFrom (position + 3) bytes).map
                (Char.ofNat (a.toNat % 0x10 * 0x1000 + payload b * 0x40 + payload c) :: ·)
            else
              match bytes with
              | [] => refuse .endOfData 3
              | d :: bytes =>
                if !isContinuation d then refuse .continuation 3
                else
                  (decodeFrom (position + 4) bytes).map
                    (Char.ofNat (a.toNat % 0x08 * 0x40000 + payload b * 0x1000 +
                      payload c * 0x40 + payload d) :: ·)

def decode (bytes : List UInt8) : Except Fault (List Char) :=
  decodeFrom 0 bytes

end Whitespace.Utf8
