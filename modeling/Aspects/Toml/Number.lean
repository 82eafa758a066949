import Aspects.Toml.Item

/-!
# Numbers and times of TOML

A value that begins with a letter, a digit or a sign is one word; this module says
which words are values. Digits may be grouped by single underscores between them. A
whole number must fit into 64 bits, a number with a fraction must not exceed what a
double can hold, and the parts of a date and a time must exist.
-/

namespace Aspects.Toml

/-- The digits of a number with underscores taken out, if every underscore stands
between two digits and there is at least one digit. -/
def digits? (isDigit : Char → Bool) : List Char → Option (List Char)
  | [] => none
  | [d] => if isDigit d then some [d] else none
  | d :: '_' :: rest => if isDigit d then (digits? isDigit rest).map (d :: ·) else none
  | d :: rest => if isDigit d then (digits? isDigit rest).map (d :: ·) else none

/-- The value of a digit in any base up to sixteen. -/
def digitValue (c : Char) : Nat :=
  if c.isDigit then c.toNat - 48
  else if 97 ≤ c.toNat then c.toNat - 87 else c.toNat - 55

/-- The number that digits spell in a base. -/
def natOfDigits (base : Nat) (ds : List Char) : Nat :=
  ds.foldl (fun n d => base * n + digitValue d) 0

def isHexDigit (c : Char) : Bool :=
  c.isDigit || (97 ≤ c.toNat && c.toNat ≤ 102) || (65 ≤ c.toNat && c.toNat ≤ 70)

/-- A whole number that fits into 64 bits. -/
def bounded (n : Int) : Option Int :=
  if -9223372036854775808 ≤ n ∧ n ≤ 9223372036854775807 then some n else none

/-- The sign of a word, and the rest of it. -/
def signOf : List Char → Bool × List Char
  | '-' :: r => (true, r)
  | '+' :: r => (false, r)
  | r => (false, r)

/-- Decimal digits without an idle zero in front. -/
def plainDigits? (s : List Char) : Option (List Char) :=
  match digits? Char.isDigit s with
  | some ('0' :: _ :: _) => none
  | ds => ds

/-- A whole number. -/
def int? (s : List Char) : Option Int :=
  match s with
  | '0' :: 'x' :: r => (digits? isHexDigit r).bind fun ds => bounded (natOfDigits 16 ds)
  | '0' :: 'o' :: r =>
    (digits? (fun c => '0' ≤ c && c ≤ '7') r).bind fun ds => bounded (natOfDigits 8 ds)
  | '0' :: 'b' :: r =>
    (digits? (fun c => c == '0' || c == '1') r).bind fun ds => bounded (natOfDigits 2 ds)
  | _ =>
    let (negative, r) := signOf s
    (plainDigits? r).bind fun ds =>
      bounded (if negative then -(natOfDigits 10 ds : Int) else natOfDigits 10 ds)

/-- Does `m · 10 ^ e` round to infinity as a double? -/
def overflows (m : Nat) (e : Int) : Bool :=
  let limit := Nat.pow 2 1024 - Nat.pow 2 970
  if m == 0 then false
  else if e > 400 then true
  else if e ≥ 0 then m * Nat.pow 10 e.toNat ≥ limit
  else if (-e).toNat > (Nat.toDigits 10 m).length then false
  else m ≥ limit * Nat.pow 10 (-e).toNat

/-- The exponent behind its letter. -/
def exponent? (s : List Char) : Option Int :=
  let (negative, r) := signOf s
  (digits? Char.isDigit r).map fun ds =>
    if negative then -(natOfDigits 10 ds : Int) else natOfDigits 10 ds

/-- A number with a fraction or an exponent, without its sign: mantissa and power. -/
def decimal? (s : List Char) : Option (Nat × Int) :=
  let isE (c : Char) := c == 'e' || c == 'E'
  let mantissa := s.takeWhile (!isE ·)
  let whole := mantissa.takeWhile (· != '.')
  let fraction := mantissa.dropWhile (· != '.')
  let power : Option Int := match s.dropWhile (!isE ·) with
    | [] => if fraction.isEmpty then none else some 0
    | _ :: r => exponent? r
  do
    let ds ← plainDigits? whole
    let fs ← match fraction with
      | [] => some []
      | _ :: r => digits? Char.isDigit r
    let p ← power
    return (natOfDigits 10 (ds ++ fs), p - fs.length)

/-- Is the word a number with a fraction or an exponent, or one of the words for
infinity and for no number? -/
def isFloat (s : List Char) : Bool :=
  let (negative, r) := signOf s
  if r == "inf".toList || r == "nan".toList then true
  else match decimal? r with
    | some (m, e) => negative || !overflows m e
    | none => false

/-- The number of exactly `n` decimal digits in front, and the rest. -/
def fixed? (n : Nat) (s : List Char) : Option (Nat × List Char) :=
  let ds := s.take n
  if ds.length == n && ds.all Char.isDigit then some (natOfDigits 10 ds, s.drop n) else none

/-- The number of days in a month. -/
def daysIn (year month : Nat) : Nat :=
  if month == 2 then
    if (year % 4 == 0 && year % 100 != 0) || year % 400 == 0 then 29 else 28
  else if [4, 6, 9, 11].contains month then 30 else 31

/-- What is left behind a date. -/
def afterDate? (s : List Char) : Option (List Char) := do
  let (year, s) ← fixed? 4 s
  let '-' :: s := s | none
  let (month, s) ← fixed? 2 s
  let '-' :: s := s | none
  let (day, s) ← fixed? 2 s
  if 1 ≤ month ∧ month ≤ 12 ∧ 1 ≤ day ∧ day ≤ daysIn year month then some s else none

/-- What is left behind a time of day. -/
def afterTime? (s : List Char) : Option (List Char) := do
  let (hour, s) ← fixed? 2 s
  let ':' :: s := s | none
  let (minute, s) ← fixed? 2 s
  let ':' :: s := s | none
  let (second, s) ← fixed? 2 s
  if 23 < hour ∨ 59 < minute ∨ 60 < second then none
  else match s with
    | '.' :: r =>
      if (r.head?).any Char.isDigit then some (r.dropWhile Char.isDigit) else none
    | s => some s

/-- Is this an offset from universal time, or nothing? -/
def isOffset (s : List Char) : Bool :=
  match s with
  | [] => true
  | ['Z'] => true
  | ['z'] => true
  | sign :: r =>
    (sign == '+' || sign == '-') &&
      match fixed? 2 r with
      | some (hour, ':' :: r) =>
        match fixed? 2 r with
        | some (minute, []) => hour ≤ 23 && minute ≤ 59
        | _ => false
      | _ => false

/-- Is the word a date, a time, or both? -/
def isTime (s : List Char) : Bool :=
  match afterDate? s with
  | some [] => true
  | some (sep :: r) =>
    (sep == 'T' || sep == 't' || sep == ' ') && (afterTime? r).any isOffset
  | none => (afterTime? s).any (·.isEmpty)

/-- The value that a word stands for. -/
def wordItem? (s : List Char) : Option Item :=
  if s == "true".toList then some (.flag true)
  else if s == "false".toList then some (.flag false)
  else match int? s with
    | some n => some (.int n)
    | none =>
      if isFloat s then some (.float (String.ofList s))
      else if isTime s then some (.time (String.ofList s))
      else none

end Aspects.Toml
