import SqlInterchange.Text

/-! # Decimal numerals

Natural numbers and integers in decimal notation: the digits of a number without leading zeros,
and the number that a run of digits stands for. -/
namespace SqlInterchange.Decimal

/-- The digit for a number below ten. -/
def digitChar (d : Nat) : Char := Char.ofNat (d + 48)

/-- The number that a digit stands for. -/
def digitValue (c : Char) : Nat := c.toNat - 48

/-- The decimal digits of a number, the most significant first, in front of `rest`. -/
def digitsBefore (rest : Text) (n : Nat) : Text :=
  if n < 10 then digitChar n :: rest else digitsBefore (digitChar (n % 10) :: rest) (n / 10)

/-- The decimal digits of a number, the most significant first; zero has one digit. -/
def digits (n : Nat) : Text := digitsBefore [] n

/-- An integer in decimal notation, with a minus sign if it is negative. -/
def ofInt : Int → Text
  | .ofNat n => digits n
  | .negSucc n => '-' :: digits (n + 1)

/-- The number that a run of digits stands for, `high` being the number before the run. -/
def valueAfter (high : Nat) (ds : Text) : Nat :=
  ds.foldl (fun n c => 10 * n + digitValue c) high

/-- The number that a run of digits stands for; no digits stand for zero. -/
def value (ds : Text) : Nat := valueAfter 0 ds

end SqlInterchange.Decimal
