import OpHeaders.Text.EmojiTable
import OpHeaders.Text.WidthTable

/-! The number of columns that a line of text takes in a table. Most characters take the
same columns wherever they stand, but emoji that are joined make one picture, selectors
change the characters that they follow, and the letters of some scripts make ligatures.
A line is therefore read from its end, and what stands behind a character is kept in mind
as far as it bears on the character. -/
namespace OpHeaders.Text

/-- The columns of a character that stands alone. -/
def charWidth (c : Char) : Nat :=
  let n := c.toNat
  if n < 0xa9 then 1
  else if n = 0x17d8 then 3
  else if inRanges n zeroWidthRanges then 0
  else if inRanges n wideRanges then 2
  else 1

/-! ### Kinds of characters -/

def isJoiner (n : Nat) : Bool := n = 0x200d

/-- Two of these letters make a flag. -/
def isFlagLetter (n : Nat) : Bool := 0x1f1e6 ≤ n && n ≤ 0x1f1ff

def isSkinTone (n : Nat) : Bool := 0x1f3fb ≤ n && n ≤ 0x1f3ff

def isPicture (n : Nat) : Bool := inRanges n pictureRanges

/-- Whether an emoji can be asked to be shown as a picture. -/
def hasPicture (n : Nat) : Bool := inRanges n convertibleRanges || inRanges n symbolRanges

/-- Whether a picture can be asked to be shown as text of one column. Squared ideographs
stay wide. -/
def hasText (n : Nat) : Bool := inRanges n convertibleRanges && !(0x1f200 ≤ n && n ≤ 0x1f2ff)

/-- The quotation marks that have a wide form. -/
def hasWideForm (n : Nat) : Bool := [0x2018, 0x2019, 0x201c, 0x201d].contains n

/-- Invisible marks, which part no ligature. -/
def isInvisibleMark (n : Nat) : Bool :=
  inRanges n [(0x34f, 0x34f), (0x17b4, 0x17b5), (0x180b, 0x180d), (0x180f, 0x180f), (0xfe00, 0xfe0f),
    (0xe0100, 0xe01ef)]

/-- Marks that may stand between Arabic letters without parting them. -/
def isArabicMark (c : Char) : Bool := charWidth c = 0 && !inRanges c.toNat partingRanges

def isArabicAlef (n : Nat) : Bool :=
  inRanges n [(0x622, 0x623), (0x625, 0x625), (0x627, 0x627), (0x671, 0x673), (0x675, 0x675), (0x773, 0x774),
    (0x870, 0x882)]

def isArabicLam (n : Nat) : Bool :=
  inRanges n [(0x644, 0x644), (0x6b5, 0x6b8), (0x76a, 0x76a), (0x8a6, 0x8a6), (0x8c7, 0x8c7)]

/-- The Khmer letters that are written below another one. -/
def hasSubscript (n : Nat) : Bool :=
  inRanges n [(0x1780, 0x1782), (0x1784, 0x1787), (0x1789, 0x178c), (0x178e, 0x1793), (0x1795, 0x1798),
    (0x179b, 0x179d), (0x17a0, 0x17a0), (0x17a2, 0x17a2), (0x17a7, 0x17a7), (0x17ab, 0x17ac), (0x17af, 0x17af)]

def isTifinaghConsonant (n : Nat) : Bool := inRanges n [(0x2d31, 0x2d65), (0x2d6f, 0x2d6f)]

/-! ### What stands behind a character -/

/-- The end of a ligature, to which a character before it may belong. -/
inductive LigatureEnd where
  | hebrewLamed
  | bugineseYa
  | bugineseVowelYa
  | tifinagh
  /-- A consonant with the mark before it that joins consonants. -/
  | tifinaghJoined
  | lisuTone
  | oldTurkicI
  | khmerSubscript

inductive Follower where
  /-- Nothing that bears on the character before it. -/
  | none
  | picture
  | skinTone
  | flagLetters (count : Nat)
  /-- A joiner with a picture behind it. -/
  | joiner
  | joinedKeycap
  | joinedFlagLetters (count : Nat)
  /-- The end of the tags that name the region of a flag, letters behind digits. -/
  | joinedTags (digits letters : Nat)
  | arabicAlef
  | ligature (l : LigatureEnd) (joined : Bool)
  | kiratRaiE
  | kiratRaiAi

/-- How a selector asks the character before it to be shown. -/
inductive Form where
  | picture
  | text
  | wide

def Form.ofSelector? (n : Nat) : Option Form :=
  if n = 0xfe0f then some .picture
  else if n = 0xfe0e then some .text
  else if n = 0xfe01 then some .wide
  else none

namespace Follower

/-- Whether a picture before a selector is still joined. -/
def joinsPicture : Follower → Bool
  | .joiner | .joinedKeycap => true
  | _ => false

/-- The follower of a character that does not take the form asked for. -/
def behindSelector : Follower → Follower
  | .arabicAlef => .arabicAlef
  | .ligature l joined => .ligature l joined
  | _ => .none

end Follower

/-- What follows a character, and the form that a selector right behind it asks for. -/
structure Surroundings where
  follower : Follower
  form : Option Form := none

/-- A follower with a selector before it. -/
def Follower.select (f : Follower) (form : Form) : Surroundings :=
  match form with
  | .picture => ⟨if f.joinsPicture then f else f.behindSelector, some .picture⟩
  | form => ⟨f.behindSelector, some form⟩

/-! ### Columns -/

/-- A character that belongs to nothing behind it. -/
def readAlone (c : Char) : Int × Follower :=
  let n := c.toNat
  let follower : Follower :=
    if isPicture n then .picture
    else if isSkinTone n then .skinTone
    else if isFlagLetter n then .flagLetters 1
    else if isArabicAlef n then .arabicAlef
    else if n = 0x5dc then .ligature .hebrewLamed false
    else if n = 0x1a10 then .ligature .bugineseYa false
    else if isTifinaghConsonant n then .ligature .tifinagh false
    else if n = 0xa4fc || n = 0xa4fd then .ligature .lisuTone false
    else if n = 0x10c03 then .ligature .oldTurkicI false
    else if hasSubscript n then .ligature .khmerSubscript false
    else if n = 0x16d67 then .kiratRaiE
    else if n = 0x16d68 then .kiratRaiAi
    else .none
  (charWidth c, follower)

/-- A character that makes a ligature with the end of it. The columns are those by which
the ligature is wider than its end. -/
def readLigature? (n : Nat) (joined : Bool) : LigatureEnd → Option (Int × Follower)
  | .hebrewLamed => if joined && n = 0x5d0 then some (0, .none) else none
  | .bugineseYa => if joined && n = 0x1a17 then some (0, .ligature .bugineseVowelYa true) else none
  | .bugineseVowelYa => if n = 0x1a15 then some (0, .none) else none
  | .tifinagh =>
    if n = 0x2d7f then some (1, .ligature .tifinaghJoined true)
    else if joined && isTifinaghConsonant n then some (0, .none)
    else none
  | .tifinaghJoined => if isTifinaghConsonant n then some (-1, .none) else none
  | .lisuTone => if 0xa4f8 ≤ n && n ≤ 0xa4fb then some (0, .none) else none
  | .oldTurkicI => if joined && n = 0x10c32 then some (0, .none) else none
  | .khmerSubscript => if n = 0x17d2 then some (-1, .none) else none

/-- A character before a joiner and a picture. -/
def readJoined? (n : Nat) : Option (Int × Follower) :=
  if n = 0x20e3 then some (0, .joinedKeycap)
  else if isFlagLetter n then some (1, .joinedFlagLetters 1)
  else if isSkinTone n then some (0, .skinTone)
  else if n = 0xe007f then some (0, .joinedTags 0 0)
  else if isPicture n then some (0, .picture)
  else none

/-- A character before the tags of a joined flag: another tag, or the flag. A region has
three to six letters, or three digits and up to four letters. -/
def readTagged? (n digits letters : Nat) : Option (Int × Follower) :=
  if 0xe0061 ≤ n && n ≤ 0xe007a && digits = 0 && letters < 6 then some (0, .joinedTags 0 (letters + 1))
  else if 0xe0030 ≤ n && n ≤ 0xe0039 && digits < 3 && letters < 5 then some (0, .joinedTags (digits + 1) letters)
  else if n = 0x1f3f4 && (digits = 3 || (digits = 0 && 3 ≤ letters)) then some (0, .picture)
  else none

/-- A character that belongs to what stands behind it. -/
def readBefore? (c : Char) (f : Follower) : Option (Int × Follower) :=
  let n := c.toNat
  match f with
  | .none | .joinedKeycap => none
  | .picture => if isJoiner n then some (0, .joiner) else none
  | .skinTone =>
    if inRanges n skinRanges then some (0, .picture)
    else if isJoiner n then some (0, .joiner)
    else none
  | .flagLetters count =>
    if isFlagLetter n then some (1, .flagLetters (count + 1))
    else if isJoiner n && 2 ≤ count then some (0, .joiner)
    else none
  | .joiner => readJoined? n
  | .joinedFlagLetters count =>
    if isFlagLetter n then some (if count % 2 = 1 then -1 else 3, .joinedFlagLetters (count + 1))
    else if isJoiner n && 2 ≤ count then some (0, .joiner)
    else none
  | .joinedTags digits letters => readTagged? n digits letters
  | .arabicAlef =>
    if isArabicLam n then some (0, .none)
    else if isArabicMark c then some (0, .arabicAlef)
    else none
  | .ligature l joined =>
    if isJoiner n then some (0, .ligature l true)
    else if isInvisibleMark n then some (0, .ligature l joined)
    else readLigature? n joined l
  | .kiratRaiE =>
    if n = 0x16d63 || n = 0x16d69 then some (0, .none)
    else if n = 0x16d67 then some (0, .kiratRaiAi)
    else if n = 0x16d68 then some (1, .kiratRaiE)
    else none
  | .kiratRaiAi => if n = 0x16d63 then some (0, .none) else none

/-- A character before a follower without a selector between them. -/
def readUnselected (c : Char) (f : Follower) : Int × Surroundings :=
  if c.toNat < 0xa1 then (1, ⟨.none, none⟩)
  else match Form.ofSelector? c.toNat with
    | some form => (0, f.select form)
    | none =>
      let (columns, follower) := (readBefore? c f).getD (readAlone c)
      (columns, ⟨follower, none⟩)

/-- The columns that a character adds in front of a text, and what it is to the character
before it. -/
def readColumns (c : Char) (s : Surroundings) : Int × Surroundings :=
  match s.form with
  | some .picture =>
    if hasPicture c.toNat then (if s.follower.joinsPicture then 0 else 2, ⟨.picture, none⟩)
    else readUnselected c s.follower.behindSelector
  | some .text => if hasText c.toNat then (1, ⟨.none, none⟩) else readUnselected c s.follower
  | some .wide => if hasWideForm c.toNat then (2, ⟨.none, none⟩) else readUnselected c s.follower
  | none => readUnselected c s.follower

/-- The columns of a line. -/
def width (s : List Char) : Nat :=
  (s.foldr (fun c (r : Int × Surroundings) =>
    let (columns, surroundings) := readColumns c r.2
    (r.1 + columns, surroundings)) (0, ⟨.none, none⟩)).1.toNat

example : width "ok - 1".toList = 6 := by decide

example : width "日本".toList = 4 ∧ width "e\u0301".toList = 1 ∧ width "ﾊﾝ".toList = 2 := by
  decide +kernel

example : width "👍🏽".toList = 2 ∧ width "🏳\ufe0f\u200d🌈".toList = 2 ∧ width "1\ufe0f\u20e3".toList = 2 ∧
    width "⌚\ufe0e".toList = 1 := by
  decide +kernel

example : width "\u0644\u0627".toList = 1 ∧ width "\u05d0\u200d\u05dc".toList = 1 ∧
    width "\u2018\ufe01".toList = 2 := by
  decide +kernel

end OpHeaders.Text
