import SqlInterchange.Value

/-! # Reading JSON

JSON text is read as a value. Beside the values of the standard, `NaN`, `Infinity` and
`-Infinity` are numbers. A number with a fraction or an exponent is floating point, every other
number an integer. A repeated name in an object has its first place and its last value.

A reader takes a text and returns what it read and the text that follows. Text that is not JSON
stops the reading with a complaint, at a place given by how many characters are left there. -/
namespace SqlInterchange.Json

/-- What a text lacks to be JSON. -/
inductive Complaint where
  /-- There should be a value. -/
  | expectingValue
  /-- There should be a name in quotes. -/
  | expectingName
  /-- There should be a colon after a name. -/
  | expectingColon
  /-- There should be a comma between two items. -/
  | expectingComma
  /-- Text follows the value. -/
  | extraData
  /-- The string that begins here has no end. -/
  | unterminatedString
  /-- A string holds a control character. -/
  | controlCharacter
  /-- A backslash is followed by no escape. -/
  | invalidEscape
  /-- An escape should have four digits of base sixteen and has not. -/
  | invalidUnicodeEscape
  /-- The text starts with a byte order mark. -/
  | byteOrderMark
deriving DecidableEq

/-- Why reading stops. -/
inductive Stop where
  /-- The text is not JSON: the complaint, and how many characters are left at its place. -/
  | complaint (kind : Complaint) (left : Nat)
  /-- An integer has more digits than are read. -/
  | integerTooLong (digits : Nat)
deriving DecidableEq

/-- What was read, or why reading stopped. -/
abbrev Reading (α : Type) := Except Stop α

/-- A complaint at the start of a text. -/
def complain {α : Type} (kind : Complaint) (place : Text) : Reading α :=
  .error (.complaint kind place.length)

/-- The blanks of JSON: space, tab and line breaks. -/
def isSpace (c : Char) : Bool := c == ' ' || c == '\t' || c == '\n' || c == '\r'

/-- What follows the blanks at the start of a text. -/
def skipSpace (t : Text) : Text := t.dropWhile isSpace

/-! ## Strings -/

/-- The number that a digit of base sixteen stands for. -/
def hexValue? (c : Char) : Option Nat :=
  if '0' ≤ c && c ≤ '9' then some (c.toNat - 48)
  else if 'a' ≤ c && c ≤ 'f' then some (c.toNat - 87)
  else if 'A' ≤ c && c ≤ 'F' then some (c.toNat - 55)
  else none

/-- The number that four digits of base sixteen stand for. -/
def hexValue4? (a b c d : Char) : Option Nat := do
  return (((← hexValue? a) * 16 + (← hexValue? b)) * 16 + (← hexValue? c)) * 16 + (← hexValue? d)

/-- The character that follows a backslash, unescaped. -/
def unescape? (c : Char) : Option Char :=
  if c = '\x22' || c = '\\' || c = '/' then some c
  else if c = 'b' then some '\x08'
  else if c = 'f' then some '\x0c'
  else if c = 'n' then some '\n'
  else if c = 'r' then some '\r'
  else if c = 't' then some '\t'
  else none

/-- The first half of a character outside the basic plane. -/
def isHighSurrogate (n : Nat) : Bool := 0xD800 ≤ n && n ≤ 0xDBFF

/-- The second half of a character outside the basic plane. -/
def isLowSurrogate (n : Nat) : Bool := 0xDC00 ≤ n && n ≤ 0xDFFF

/-- The character of two halves. -/
def joinSurrogates (high low : Nat) : Char :=
  Char.ofNat (0x10000 + (high - 0xD800) * 0x400 + (low - 0xDC00))

/-- The character of a code unit. Half a character is none, and a text has only whole ones, so that
texts with a lone half are outside the model; the replacement character stands for the half. -/
def charOfUnit (n : Nat) : Char :=
  if isHighSurrogate n || isLowSurrogate n then '\ufffd' else Char.ofNat n

/-- The second half at the start of a text, written as an escape, and what follows it. The text
must go on after the escape for it to count. -/
def lowSurrogate? (t : Text) : Reading (Option (Nat × Text)) :=
  match t with
  | '\\' :: 'u' :: a :: b :: c :: d :: e :: rest =>
    match hexValue4? a b c d with
    | none => complain .invalidUnicodeEscape ('u' :: a :: b :: c :: d :: e :: rest)
    | some n => .ok (if isLowSurrogate n then some (n, e :: rest) else none)
  | _ => .ok none

/-- The character of an escape with a number, given the text behind the `u`, and what follows it.
The text must go on after the escape. -/
def unicodeEscape (t : Text) : Reading (Char × Text) :=
  match t with
  | a :: b :: c :: d :: e :: rest =>
    match hexValue4? a b c d with
    | none => complain .invalidUnicodeEscape ('u' :: t)
    | some n =>
      if isHighSurrogate n then do
        match ← lowSurrogate? (e :: rest) with
        | some (low, after) => .ok (joinSurrogates n low, after)
        | none => .ok (charOfUnit n, e :: rest)
      else .ok (charOfUnit n, e :: rest)
  | _ => complain .invalidUnicodeEscape ('u' :: t)

/-- One character of a string as it is written, and what follows it; nothing at the closing quote.
`opened` is the text from the quote that opens the string. -/
def stringChar (opened t : Text) : Reading (Option Char × Text) :=
  match t with
  | [] => complain .unterminatedString opened
  | c :: cs =>
    if c = '\x22' then .ok (none, cs)
    else if c = '\\' then
      match cs with
      | [] => complain .unterminatedString opened
      | e :: rest =>
        if e = 'u' then (unicodeEscape rest).map fun (ch, after) => (some ch, after)
        else
          match unescape? e with
          | some ch => .ok (some ch, rest)
          | none => complain .invalidEscape t
    else if c.toNat < 0x20 then complain .controlCharacter t
    else .ok (some c, cs)

/-- The rest of a string behind its opening quote. Each character takes at least one character of
text, so the length of the text is enough fuel. -/
def stringRest (opened : Text) : Nat → Text → Reading (Text × Text)
  | 0, _ => complain .unterminatedString opened
  | fuel + 1, t => do
    match ← stringChar opened t with
    | (none, after) => .ok ([], after)
    | (some c, after) =>
      let (cs, after) ← stringRest opened fuel after
      .ok (c :: cs, after)

/-- A string, given the text behind its opening quote. -/
def string (t : Text) : Reading (Text × Text) := stringRest ('\x22' :: t) (t.length + 1) t

/-! ## Numbers -/

/-- The most digits that an integer may have. -/
def maxDigits : Nat := 4300

/-- A run of digits and what follows it. -/
def digitRun (t : Text) : Text × Text := (t.takeWhile Char.isDigit, t.dropWhile Char.isDigit)

/-- The digits before the point, a zero standing alone, and what follows them. -/
def wholePart? (t : Text) : Option (Text × Text) :=
  match t with
  | [] => none
  | c :: cs =>
    if c = '0' then some (['0'], cs) else if c.isDigit then some (digitRun t) else none

/-- The digits behind a point, and what follows them. -/
def fraction? (t : Text) : Option (Text × Text) :=
  match t with
  | '.' :: d :: cs => if d.isDigit then some (digitRun (d :: cs)) else none
  | _ => none

/-- A sign and the digits behind it, and what follows them. -/
def signedDigits? (t : Text) : Option (Int × Text) :=
  let (negative, t) :=
    match t with
    | '-' :: cs => (true, cs)
    | '+' :: cs => (false, cs)
    | _ => (false, t)
  let (ds, after) := digitRun t
  if ds.isEmpty then none
  else some (if negative then -(Decimal.value ds : Int) else Decimal.value ds, after)

/-- An exponent and what follows it. -/
def exponent? (t : Text) : Option (Int × Text) :=
  match t with
  | c :: cs => if c = 'e' || c = 'E' then signedDigits? cs else none
  | [] => none

/-- A number without its sign, and what follows it. -/
def unsigned? (negative : Bool) (t : Text) : Option (Reading (Value × Text)) := do
  let (whole, t) ← wholePart? t
  match fraction? t, exponent? ((fraction? t).elim t Prod.snd) with
  | none, none =>
    if maxDigits < whole.length then some (.error (.integerTooLong whole.length))
    else
      let n : Int := Decimal.value whole
      some (.ok (.int (if negative then -n else n), t))
  | some (ds, t), none =>
    some (.ok (.float (.ofDecimal negative (Decimal.value (whole ++ ds)) (-(ds.length : Int))), t))
  | none, some (e, t) => some (.ok (.float (.ofDecimal negative (Decimal.value whole) e), t))
  | some (ds, _), some (e, t) =>
    some (.ok (.float (.ofDecimal negative (Decimal.value (whole ++ ds)) (e - ds.length)), t))

/-- A number and what follows it. -/
def number? (t : Text) : Option (Reading (Value × Text)) :=
  match t with
  | '-' :: cs => unsigned? true cs
  | _ => unsigned? false t

/-! ## Values -/

/-- The values that are written as words. -/
def words : List (String × Value) :=
  [("null", .null), ("true", .bool true), ("false", .bool false), ("NaN", .float .nan),
    ("Infinity", .float (.infinite false)), ("-Infinity", .float (.infinite true))]

/-- A word and what follows it. -/
def word? (t : Text) : Option (Value × Text) :=
  words.findSome? fun (word, v) => (Text.stripStart? word.toList t).map (v, ·)

/-- A value that has no parts. -/
def scalar (t : Text) : Reading (Value × Text) :=
  match word? t with
  | some result => .ok result
  | none => (number? t).getD (complain .expectingValue t)

/-- A name with its quotes and the colon behind it, and the text of the value. -/
def name (t : Text) : Reading (Text × Text) := do
  match t with
  | [] => complain .expectingName t
  | c :: cs =>
    if c = '\x22' then
      let (key, after) ← string cs
      match skipSpace after with
      | ':' :: rest => .ok (key, skipSpace rest)
      | after => complain .expectingColon after
    else complain .expectingName t

mutual

/-- A value and what follows it. -/
def value : Nat → Text → Reading (Value × Text)
  | 0, t => complain .expectingValue t
  | fuel + 1, t =>
    match t with
    | [] => complain .expectingValue t
    | c :: cs =>
      if c = '\x22' then (string cs).map fun (s, after) => (.text s, after)
      else if c = '\x7b' then
        match skipSpace cs with
        | '\x7d' :: after => .ok (.object [], after)
        | t =>
          (fields fuel t).map fun (fs, after) => (.object (OrderedMap.ofList fs).entries, after)
      else if c = '[' then
        match skipSpace cs with
        | ']' :: after => .ok (.list [], after)
        | t => (items fuel t).map fun (vs, after) => (.list vs, after)
      else scalar t

/-- The items of a list up to its closing bracket, at least one. -/
def items : Nat → Text → Reading (List Value × Text)
  | 0, t => complain .expectingValue t
  | fuel + 1, t => do
    let (v, after) ← value fuel t
    match skipSpace after with
    | ']' :: after => .ok ([v], after)
    | ',' :: after =>
      let (vs, after) ← items fuel (skipSpace after)
      .ok (v :: vs, after)
    | after => complain .expectingComma after

/-- The fields of an object up to its closing brace, at least one. -/
def fields : Nat → Text → Reading (List (Text × Value) × Text)
  | 0, t => complain .expectingName t
  | fuel + 1, t => do
    let (key, after) ← name t
    let (v, after) ← value fuel after
    match skipSpace after with
    | '\x7d' :: after => .ok ([(key, v)], after)
    | ',' :: after =>
      let (fs, after) ← fields fuel (skipSpace after)
      .ok ((key, v) :: fs, after)
    | after => complain .expectingComma after

end

/-- The value that a text holds. A value takes at least one character and a part at most one
step more, so twice the length of the text is enough fuel. -/
def read (t : Text) : Reading Value := do
  if t.head? = some '\ufeff' then complain .byteOrderMark t
  else
    let t := skipSpace t
    let (v, after) ← value (2 * t.length + 2) t
    match skipSpace after with
    | [] => .ok v
    | after => complain .extraData after

/-! ## Messages -/

/-- The words of a complaint. -/
def Complaint.message : Complaint → Text
  | expectingValue => "Expecting value".toList
  | expectingName => "Expecting property name enclosed in double quotes".toList
  | expectingColon => "Expecting ':' delimiter".toList
  | expectingComma => "Expecting ',' delimiter".toList
  | extraData => "Extra data".toList
  | unterminatedString => "Unterminated string starting at".toList
  | controlCharacter => "Invalid control character at".toList
  | invalidEscape => "Invalid \\escape".toList
  | invalidUnicodeEscape => "Invalid \\uXXXX escape".toList
  | byteOrderMark => "Unexpected UTF-8 BOM (decode using utf-8-sig)".toList

/-- A place in a text, by line and column from one and by characters from zero. -/
def placeText (t : Text) (position : Nat) : Text :=
  let before := t.take position
  let line := before.count '\n' + 1
  let column := (before.reverse.takeWhile (· != '\n')).length + 1
  ": line ".toList ++ Decimal.digits line ++ " column ".toList ++ Decimal.digits column ++
    " (char ".toList ++ Decimal.digits position ++ [')']

/-- A complaint about a text and its place there. -/
def complaintText (t : Text) (kind : Complaint) (left : Nat) : Text :=
  kind.message ++ placeText t (t.length - left)

end SqlInterchange.Json
