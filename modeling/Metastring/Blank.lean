/-!
# Blank characters

The characters with the White_Space property, and cutting them off both ends
of a text.
-/

namespace Metastring

/-- The ranges of characters with the White_Space property. -/
def blankRanges : List (Char × Char) :=
  [('\t', '\r'), (' ', ' '), ('\u0085', '\u0085'), ('\u00A0', '\u00A0'),
    ('\u1680', '\u1680'), ('\u2000', '\u200A'), ('\u2028', '\u2029'),
    ('\u202F', '\u202F'), ('\u205F', '\u205F'), ('\u3000', '\u3000')]

/-- A character with the White_Space property. -/
def isBlank (letter : Char) : Bool :=
  blankRanges.any fun (first, last) => first ≤ letter && letter ≤ last

/-- A text without the blanks at its two ends. -/
def trimBlanks (letters : List Char) : List Char :=
  ((letters.dropWhile isBlank).reverse.dropWhile isBlank).reverse

end Metastring
