/-!
# Blank characters

The characters with the Unicode `White_Space` property: the ASCII controls tab to carriage
return, space, next line, no-break space, ogham space mark, the spaces from en quad to hair
space, line and paragraph separator, narrow no-break space, medium mathematical space and
ideographic space. Commands and decimals are trimmed of them, and command words are separated
by them.
-/

namespace TickGrid

namespace Text

/-- A character is blank when it has the Unicode `White_Space` property. -/
def isBlank (c : Char) : Bool :=
  let n := c.toNat
  (0x09 ≤ n && n ≤ 0x0D) || n == 0x20 || n == 0x85 || n == 0xA0 || n == 0x1680 ||
    (0x2000 ≤ n && n ≤ 0x200A) || n == 0x2028 || n == 0x2029 || n == 0x202F ||
    n == 0x205F || n == 0x3000

/-- The characters with no blank at either end. -/
def trimBlank (cs : List Char) : List Char :=
  ((cs.dropWhile isBlank).reverse.dropWhile isBlank).reverse

/-- The maximal runs of non-blank characters, in order. -/
def words (cs : List Char) : List (List Char) :=
  (cs.splitOnP isBlank).filter (· ≠ [])

example : isBlank '\u3000' = true ∧ isBlank '\u00a0' = true ∧ isBlank '\u200b' = false := by
  decide

end Text

end TickGrid
