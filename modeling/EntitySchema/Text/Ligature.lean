import EntitySchema.Text.CellWidth

/-!
Letters that are drawn as one sign with the letters before them. A text is measured from its end, so
what is kept of such a sequence is its tail, and the letter before the tail tells what comes of it.
-/

namespace EntitySchema.Text

/-- The tail of a sequence of letters that may be drawn as one. Where the sequence needs a joiner,
`joined` tells whether one has been seen. -/
inductive LigatureTail where
  /-- The alef of Arabic, after which lam is looked for. -/
  | alef
  /-- The lamed of Hebrew. -/
  | lamed (joined : Bool)
  /-- The ya of Buginese, and the vowel sign before it. -/
  | ya (joined : Bool)
  | vowelYa
  /-- A consonant of Tifinagh, and the consonant joiner before it. -/
  | consonant (joined : Bool)
  | consonantJoiner
  /-- The second tone mark of a Lisu pair. -/
  | lisuTone
  /-- The letter i of Orkhon. -/
  | orkhonI (joined : Bool)
  /-- A Khmer letter that can be written below another one. -/
  | coengLetter
  deriving DecidableEq, Repr

def isLam (n : Nat) : Bool :=
  n == 0x644 || (0x6B5 ≤ n && n ≤ 0x6B8) || n == 0x76A || n == 0x8A6 || n == 0x8C7

def isAlef (n : Nat) : Bool :=
  n == 0x622 || n == 0x623 || n == 0x625 || n == 0x627 || (0x671 ≤ n && n ≤ 0x673) ||
    n == 0x675 || n == 0x773 || n == 0x774 || (0x870 ≤ n && n ≤ 0x882)

def isCoengLetter (n : Nat) : Bool :=
  (0x1780 ≤ n && n ≤ 0x1782) || (0x1784 ≤ n && n ≤ 0x1787) || (0x1789 ≤ n && n ≤ 0x178C) ||
    (0x178E ≤ n && n ≤ 0x1793) || (0x1795 ≤ n && n ≤ 0x1798) || (0x179B ≤ n && n ≤ 0x179D) ||
    n == 0x17A0 || n == 0x17A2 || n == 0x17A7 || n == 0x17AB || n == 0x17AC || n == 0x17AF

def isTifinaghConsonant (n : Nat) : Bool :=
  (0x2D31 ≤ n && n ≤ 0x2D65) || n == 0x2D6F

/-- An ignorable combining mark, which does not part the letters of a sequence. -/
def isIgnorableMark (n : Nat) : Bool :=
  n == 0x34F || n == 0x17B4 || n == 0x17B5 || (0x180B ≤ n && n ≤ 0x180D) || n == 0x180F ||
    (0xFE00 ≤ n && n ≤ 0xFE0F) || (0xE0100 ≤ n && n ≤ 0xE01EF)

namespace LigatureTail

/-- The tail that a letter makes. -/
def ofCode? (n : Nat) : Option LigatureTail :=
  if isAlef n then some .alef
  else if n == 0x5DC then some (.lamed false)
  else if n == 0x1A10 then some (.ya false)
  else if isTifinaghConsonant n then some (.consonant false)
  else if n == 0xA4FC || n == 0xA4FD then some .lisuTone
  else if n == 0x10C03 then some (.orkhonI false)
  else if isCoengLetter n then some .coengLetter
  else none

/-- The tail after a joiner. That of Arabic is not changed by one but ended. -/
def join? : LigatureTail → Option LigatureTail
  | alef => none
  | lamed _ => some (lamed true)
  | ya _ => some (ya true)
  | consonant _ => some (consonant true)
  | orkhonI _ => some (orkhonI true)
  | tail => some tail

/-- Whether a character leaves the tail as it is, and takes no room. -/
def passes (c : Char) : LigatureTail → Bool
  | alef => isJoiningTransparent c
  | _ => isIgnorableMark c.toNat

/-- The cells that a letter adds before the tail, if it belongs to the sequence, and the longer
tail, if the sequence goes on. -/
def extend? (n : Nat) : LigatureTail → Option (Int × Option LigatureTail)
  | alef => if isLam n then some (0, none) else none
  | lamed joined => if joined && n == 0x5D0 then some (0, none) else none
  | ya joined => if joined && n == 0x1A17 then some (0, some vowelYa) else none
  | vowelYa => if n == 0x1A15 then some (0, none) else none
  | consonant joined =>
    if n == 0x2D7F then some (1, some consonantJoiner)
    else if joined && isTifinaghConsonant n then some (0, none)
    else none
  | consonantJoiner => if isTifinaghConsonant n then some (-1, none) else none
  | lisuTone => if 0xA4F8 ≤ n && n ≤ 0xA4FB then some (0, none) else none
  | orkhonI joined => if joined && n == 0x10C32 then some (0, none) else none
  | coengLetter => if n == 0x17D2 then some (-1, none) else none

end LigatureTail

end EntitySchema.Text
