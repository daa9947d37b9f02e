/-!
# White space

The characters that separate words in every text this library reads, and trimming.
-/

namespace Retarget.Text

/-- White space: the tabulators and line ends from U+0009 to U+000D, the space, the next-line
mark, and the other separators of width greater than zero. -/
def isBlank (c : Char) : Bool :=
  let n := c.toNat
  (9 ≤ n && n ≤ 13) || n == 0x20 || n == 0x85 || n == 0xA0 || n == 0x1680 ||
    (0x2000 ≤ n && n ≤ 0x200A) || n == 0x2028 || n == 0x2029 || n == 0x202F ||
    n == 0x205F || n == 0x3000

def trimLeft (text : List Char) : List Char :=
  text.dropWhile isBlank

def trimRight (text : List Char) : List Char :=
  (text.reverse.dropWhile isBlank).reverse

/-- The text without the white space around it. -/
def trim (text : List Char) : List Char :=
  trimRight (trimLeft text)

end Retarget.Text
