/-! # Text

Everything this library reads and writes is text, taken as the list of its characters: lengths
and positions count characters, and a scanner is a recursion on the list. This module holds the
operations that every part shares: blanks and trimming, line breaks, the search for a piece of
text, and the letters that a keyword accepts in place of its own. -/
namespace SqlInterchange

/-- A text is the list of its characters. -/
abbrev Text := List Char

namespace Text

/-! ## Blanks -/

/-- The white space characters of Unicode, with the four separators `U+001C` to `U+001F`. The
zero-width characters are not among them. -/
def isBlank (c : Char) : Bool :=
  let n := c.toNat
  (0x09 ≤ n && n ≤ 0x0D) || (0x1C ≤ n && n ≤ 0x20) || n == 0x85 || n == 0xA0 || n == 0x1680 ||
    (0x2000 ≤ n && n ≤ 0x200A) || n == 0x2028 || n == 0x2029 || n == 0x202F || n == 0x205F ||
    n == 0x3000

/-- Carriage return and line feed. -/
def isLineBreak (c : Char) : Bool := c == '\n' || c == '\r'

/-- A text without the characters at its end that satisfy `p`. -/
def dropEndWhile (p : Char → Bool) (t : Text) : Text := (t.reverse.dropWhile p).reverse

/-- A text without the blanks at its start. -/
def trimStart (t : Text) : Text := t.dropWhile isBlank

/-- A text without the blanks at its end. -/
def trimEnd (t : Text) : Text := t.dropEndWhile isBlank

/-- A text without the blanks at either end. -/
def trim (t : Text) : Text := trimEnd (trimStart t)

/-- Writes one space for every run of blanks. The flag says that the character before was a
blank, whose space is already written. -/
def collapseBlanks (afterBlank : Bool) : Text → Text
  | [] => []
  | c :: cs =>
    if isBlank c then
      if afterBlank then collapseBlanks true cs else ' ' :: collapseBlanks true cs
    else c :: collapseBlanks false cs

/-- A text on one line: runs of blanks become one space and the ends are trimmed. -/
def squeeze (t : Text) : Text := trim (collapseBlanks false t)

/-! ## Parts -/

/-- Whether a text has `part` somewhere in it. The empty text is part of every text. -/
def occursIn (part : Text) : Text → Bool
  | [] => part.isEmpty
  | c :: cs => part.isPrefixOf (c :: cs) || occursIn part cs

/-- What follows `start`, if the text starts with it. -/
def stripStart? (start : Text) (t : Text) : Option Text :=
  match start, t with
  | [], t => some t
  | _ :: _, [] => none
  | s :: start, c :: cs => if s = c then stripStart? start cs else none

/-- The texts written one after the other, with `separator` between neighbours. -/
def joinWith (separator : String) (parts : List Text) : Text :=
  List.intercalate separator.toList parts

/-! ## Letter case -/

/-- Whether `c` stands for the capital letter `letter` where letter case is ignored. Besides the
small letter, the dotted capital and the dotless small `i` stand for `I`, and the long `s` stands
for `S`. -/
def foldsTo (letter c : Char) : Bool :=
  c.toUpper == letter ||
    (letter == 'I' && (c == '\u0130' || c == '\u0131')) || (letter == 'S' && c == '\u017f')

/-- What follows the word `word`, written in capitals, if the text starts with it in any letter
case. -/
def stripWord? (word : Text) (t : Text) : Option Text :=
  match word, t with
  | [], t => some t
  | _ :: _, [] => none
  | letter :: word, c :: cs => if foldsTo letter c then stripWord? word cs else none

/-- What follows at least one blank, all blanks taken. -/
def stripBlanks? : Text → Option Text
  | [] => none
  | c :: cs => if isBlank c then some (trimStart cs) else none

/-! ## Base sixteen -/

/-- A digit of base sixteen, in small letters. -/
def hexDigit (d : Nat) : Char := if d < 10 then Char.ofNat (d + 48) else Char.ofNat (d + 87)

/-- The last `width` digits of a number in base sixteen. -/
def hex (width n : Nat) : Text :=
  match width with
  | 0 => []
  | width + 1 => hex width (n / 16) ++ [hexDigit (n % 16)]

end Text
end SqlInterchange
