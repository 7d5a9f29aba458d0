/-!
Reading bytes as UTF-8 when they may not be: each longest start of a character that breaks off, and
each byte that starts none, is read as the replacement character.
-/

namespace EntitySchema.Text

/-- A character that is not complete: its bits so far, how many bytes are missing, and between which
bounds the next one lies. -/
structure PartialChar where
  code : Nat
  missing : Nat
  low : Nat
  high : Nat
  deriving DecidableEq, Repr

def replacement : Char := '�'

/-- The first byte of a character of several bytes. The bounds of the second byte keep out code
points that have a shorter form or are no characters. -/
def leadByte? (b : Nat) : Option PartialChar :=
  if 0xC2 ≤ b ∧ b ≤ 0xDF then some ⟨b - 0xC0, 1, 0x80, 0xBF⟩
  else if b = 0xE0 then some ⟨0, 2, 0xA0, 0xBF⟩
  else if b = 0xED then some ⟨0xD, 2, 0x80, 0x9F⟩
  else if 0xE1 ≤ b ∧ b ≤ 0xEF then some ⟨b - 0xE0, 2, 0x80, 0xBF⟩
  else if b = 0xF0 then some ⟨0, 3, 0x90, 0xBF⟩
  else if 0xF1 ≤ b ∧ b ≤ 0xF3 then some ⟨b - 0xF0, 3, 0x80, 0xBF⟩
  else if b = 0xF4 then some ⟨4, 3, 0x80, 0x8F⟩
  else none

/-- One byte where no character is begun. -/
def firstByte (b : Nat) : List Char × Option PartialChar :=
  if b < 0x80 then ([Char.ofNat b], none)
  else
    match leadByte? b with
    | some p => ([], some p)
    | none => ([replacement], none)

/-- One byte after others: the characters it completes, and the one it leaves incomplete. -/
def nextByte (b : Nat) : Option PartialChar → List Char × Option PartialChar
  | none => firstByte b
  | some p =>
    if p.low ≤ b ∧ b ≤ p.high then
      let code := p.code * 64 + (b - 0x80)
      if p.missing = 1 then ([Char.ofNat code], none)
      else ([], some ⟨code, p.missing - 1, 0x80, 0xBF⟩)
    else
      let (cs, rest) := firstByte b
      (replacement :: cs, rest)

/-- The characters of bytes after an incomplete character. -/
def decodeFrom (begun : Option PartialChar) : List UInt8 → List Char
  | [] => if begun.isSome then [replacement] else []
  | b :: rest =>
    let (cs, begun) := nextByte b.toNat begun
    cs ++ decodeFrom begun rest

def decodeLossy (bytes : List UInt8) : String :=
  String.ofList (decodeFrom none bytes)

end EntitySchema.Text
