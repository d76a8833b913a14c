/-
  Blank characters: the white space of the Unicode standard.

  Key definitions include:
    * `Blank.isBlank`
    * `Blank.skip`
    * `Blank.trim`
-/

namespace Preview

namespace Blank

/- White space of any script. -/
def isBlank (c : Char) : Bool :=
  let n := c.toNat
  (9 ≤ n && n ≤ 13) || n = 0x20 || n = 0x85 || n = 0xA0 ||
    n = 0x1680 || (0x2000 ≤ n && n ≤ 0x200A) ||
    n = 0x2028 || n = 0x2029 || n = 0x202F ||
    n = 0x205F || n = 0x3000

/- What follows the blanks at the start. -/
def skip (cs : List Char) : List Char :=
  cs.dropWhile isBlank

/- Drop the blanks at both ends. -/
def trim (cs : List Char) : List Char :=
  (skip (skip cs).reverse).reverse

end Blank

end Preview
