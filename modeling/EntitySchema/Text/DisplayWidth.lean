import EntitySchema.Text.Emoji
import EntitySchema.Text.Ligature

/-!
The width of a text in terminal cells. Mostly it is the sum of the widths of the characters, but a
few sequences are drawn as one sign: a line break of two characters, emoji with a selector, a skin
tone or a joiner, and some ligatures. The text is read from its end, so that each character is
measured with a view to what follows it.
-/

namespace EntitySchema.Text

/-- The tail of a sequence of emoji. -/
inductive EmojiTail where
  /-- An emoji that is drawn as a picture. -/
  | picture
  | skinTone
  /-- A single letter of a flag, or several of them. -/
  | flagLetter
  | flagLetters
  /-- A joiner before a picture. -/
  | joined
  /-- A keycap before a joiner and a picture. -/
  | joinedKeycap
  /-- A single letter of a flag before a joiner and a picture, or several of them. -/
  | joinedFlagLetter
  | joinedFlagLetters (even : Bool)
  /-- The letters that end a tag before a joiner and a picture, none of them or up to six. -/
  | joinedTagLetters (count : Nat)
  /-- The digits of such a tag, up to three. -/
  | joinedTagDigits (count : Nat)
  deriving DecidableEq, Repr

/-- What follows a character, as far as the drawing of that character depends on it. -/
inductive Sign where
  | other
  | lineFeed
  | emoji (tail : EmojiTail)
  | ligature (tail : LigatureTail)
  /-- The vowel signs e and ai of Kirat Rai, which make other vowel signs together. -/
  | kiratE
  | kiratAi
  deriving DecidableEq, Repr

/-- A mark that chooses the shape of the character before it. -/
inductive Selector where
  /-- An emoji is drawn as a picture. -/
  | picture
  /-- An emoji is drawn as text. -/
  | text
  /-- A quotation mark is drawn in two cells. -/
  | fullwidth
  deriving DecidableEq, Repr

def Selector.ofCode? (n : Nat) : Option Selector :=
  if n == 0xFE0F then some .picture
  else if n == 0xFE0E then some .text
  else if n == 0xFE01 then some .fullwidth
  else none

/-- What follows a character, with the selector in front of it, if there is one. -/
structure Following where
  selector : Option Selector := none
  sign : Sign := .other
  deriving DecidableEq, Repr

namespace Sign

/-- What a character is for the one before it. -/
def ofChar (c : Char) : Sign :=
  let n := c.toNat
  if isSkinTone c then .emoji .skinTone
  else if isRegionalIndicator c then .emoji .flagLetter
  else if isEmojiPicture c then .emoji .picture
  else if n == 0x16D67 then .kiratE
  else if n == 0x16D68 then .kiratAi
  else
    match LigatureTail.ofCode? n with
    | some tail => .ligature tail
    | none => .other

def isLigature : Sign → Bool
  | ligature _ => true
  | _ => false

/-- A picture that is joined to something before it. -/
def isJoinedPicture : Sign → Bool
  | emoji .joined | emoji .joinedKeycap => true
  | _ => false

/-- Puts a selector in front. Only sequences that can go on across it are kept in mind. -/
def select (s : Selector) (sign : Sign) : Following :=
  if sign.isLigature || (s == .picture && sign.isJoinedPicture) then ⟨some s, sign⟩
  else ⟨some s, .other⟩

end Sign

namespace Following

/-- What follows a character that the selector does not apply to. -/
def unselected (next : Following) : Sign :=
  if next.selector == some .picture && !next.sign.isLigature then .other else next.sign

/-- The cells of a character that the selector after it applies to. -/
def selectedWidth? (c : Char) (next : Following) : Option (Int × Sign) :=
  match next.selector with
  | some .picture =>
    if takesPictureSelector c then
      some (if next.sign.isJoinedPicture then 0 else 2, .emoji .picture)
    else none
  | some .text => if takesTextSelector c then some (1, .other) else none
  | some .fullwidth =>
    if [0x2018, 0x2019, 0x201C, 0x201D].contains c.toNat then some (2, .other) else none
  | none => none

end Following

/-- The cells that `c` adds before a sequence of emoji, when it belongs to it. -/
def EmojiTail.extend? (c : Char) (tail : EmojiTail) : Option (Int × EmojiTail) :=
  let isJoiner := c.toNat == 0x200D
  match tail with
  | picture => if isJoiner then some (0, joined) else none
  | skinTone =>
    if isEmojiModifierBase c then some (0, picture)
    else if isJoiner then some (0, joined)
    else none
  | flagLetter => if isRegionalIndicator c then some (1, flagLetters) else none
  | flagLetters =>
    if isRegionalIndicator c then some (1, flagLetters)
    else if isJoiner then some (0, joined)
    else none
  | joined =>
    if c.toNat == 0x20E3 then some (0, joinedKeycap)
    else if isRegionalIndicator c then some (1, joinedFlagLetter)
    else if isSkinTone c then some (0, skinTone)
    else if c.toNat == 0xE007F then some (0, joinedTagLetters 0)
    else if isEmojiPicture c then some (0, picture)
    else none
  | joinedKeycap => none
  | joinedFlagLetter =>
    if isRegionalIndicator c then some (-1, joinedFlagLetters true) else none
  | joinedFlagLetters even =>
    if isRegionalIndicator c then some (if even then 3 else -1, joinedFlagLetters (!even))
    else if isJoiner then some (0, joined)
    else none
  | joinedTagLetters count =>
    if isTagLetter c && count < 6 then some (0, joinedTagLetters (count + 1))
    else if isTagDigit c && count ≤ 4 then some (0, joinedTagDigits 1)
    else if c.toNat == 0x1F3F4 && 3 ≤ count then some (0, picture)
    else none
  | joinedTagDigits count =>
    if isTagDigit c && count < 3 then some (0, joinedTagDigits (count + 1))
    else if c.toNat == 0x1F3F4 && count == 3 then some (0, picture)
    else none

/-- The cells that `c` adds before `sign`, when the two are drawn together. -/
def joinedWidth? (c : Char) (sign : Sign) : Option (Int × Sign) :=
  let n := c.toNat
  match sign with
  | .emoji tail => (tail.extend? c).map (fun (width, tail) => (width, .emoji tail))
  | .ligature tail =>
    match (if n == 0x200D then tail.join? else none) with
    | some tail => some (0, .ligature tail)
    | none =>
      if tail.passes c then some (0, .ligature tail)
      else
        (tail.extend? n).map (fun (width, longer) =>
          (width, (longer.map Sign.ligature).getD .other))
  | .kiratE =>
    if n == 0x16D63 || n == 0x16D69 then some (0, .other)
    else if n == 0x16D67 then some (0, .kiratAi)
    else if n == 0x16D68 then some (1, .kiratE)
    else none
  | .kiratAi => if n == 0x16D63 then some (0, .other) else none
  | .lineFeed | .other => none

/-- The cells of a character up to the no-break space. A line break of two characters counts as
one. -/
def basicWidth (c : Char) (sign : Sign) : Int × Sign :=
  if c == '\n' then (1, .lineFeed)
  else if c == '\r' && sign == .lineFeed then (0, .other)
  else (1, .other)

/-- The cells that `c` adds before `next`, and what it is itself for the one before it. -/
def widthBefore (c : Char) (next : Following) : Int × Following :=
  match next.selectedWidth? c with
  | some (width, sign) => (width, { sign })
  | none =>
    let sign := next.unselected
    if c.toNat ≤ 0xA0 then
      let (width, sign) := basicWidth c sign
      (width, { sign })
    else
      match Selector.ofCode? c.toNat with
      | some s => (0, sign.select s)
      | none =>
        let (width, sign) := (joinedWidth? c sign).getD (cellWidth c, .ofChar c)
        (width, { sign })

/-- The width of a text in terminal cells. -/
def displayWidth (s : String) : Nat :=
  let total := s.toList.foldr
    (fun c (sum, next) => let (width, here) := widthBefore c next; (sum + width, here))
    ((0 : Int), ({} : Following))
  total.1.toNat

end EntitySchema.Text
