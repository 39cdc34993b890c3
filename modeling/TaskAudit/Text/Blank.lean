/-!
# Blanks around a token

The blanks are the characters with the `White_Space` property; `trim` takes them
off both ends of a text.
-/
namespace TaskAudit.Text

/-- Has the character the `White_Space` property? -/
def isBlank (c : Char) : Bool :=
  let n := c.toNat
  (0x09 ≤ n && n ≤ 0x0D) || n == 0x20 || n == 0x85 || n == 0xA0 || n == 0x1680 ||
    (0x2000 ≤ n && n ≤ 0x200A) || n == 0x2028 || n == 0x2029 || n == 0x202F ||
    n == 0x205F || n == 0x3000

/-- The characters without the blanks before them. -/
def trimStart (cs : List Char) : List Char := cs.dropWhile isBlank

/-- The characters without the blanks after them. -/
def trimEnd (cs : List Char) : List Char := (cs.reverse.dropWhile isBlank).reverse

/-- The characters without the blanks around them. -/
def trim (cs : List Char) : List Char := trimEnd (trimStart cs)

end TaskAudit.Text
