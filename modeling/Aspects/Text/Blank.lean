/-!
# Blanks

Cutting a text at its blanks. A blank is a character with the standard's
`White_Space` property, so a no-break space is one and a zero-width space is not.
-/

namespace Aspects.Text

/-- The characters with the `White_Space` property. -/
def isBlank (c : Char) : Bool :=
  let n := c.toNat
  (9 ≤ n && n ≤ 13) || n == 32 || n == 0x85 || n == 0xA0 || n == 0x1680 ||
    (0x2000 ≤ n && n ≤ 0x200A) || n == 0x2028 || n == 0x2029 || n == 0x202F ||
    n == 0x205F || n == 0x3000

/-- The text without the blanks at its two ends. -/
def trim (s : List Char) : List Char :=
  ((s.dropWhile isBlank).reverse.dropWhile isBlank).reverse

/-- Adds a character to the word that is being read, or ends that word at a blank. -/
def splitStep (c : Char) : List Char × List (List Char) → List Char × List (List Char)
  | (word, done) =>
    if isBlank c then
      ([], if word.isEmpty then done else word :: done)
    else
      (c :: word, done)

/-- The longest runs of characters that are no blanks, in order. -/
def words (s : List Char) : List (List Char) :=
  let (word, done) := s.foldr splitStep ([], [])
  if word.isEmpty then done else word :: done

/-- The text with its capital letters of the basic alphabet made small. No other
letter turns into one of that alphabet that a keyword here contains, so this is
enough to compare with a keyword without regard to case. -/
def lower (s : String) : String :=
  String.ofList (s.toList.map Char.toLower)

end Aspects.Text
