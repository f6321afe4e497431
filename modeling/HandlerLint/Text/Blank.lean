/-!
# Blank characters

The characters that count as blank wherever the linter trims or separates text:
those with the `White_Space` property.  Trimming is defined on lists of
characters, so that every statement about trimmed text is one about lists.
-/

namespace HandlerLint.Text

/-- A blank character: one with the `White_Space` property. -/
def isBlank (c : Char) : Bool :=
  let n := c.toNat
  (0x09 ≤ n && n ≤ 0x0D) || n == 0x20 || n == 0x85 || n == 0xA0 || n == 0x1680 ||
    (0x2000 ≤ n && n ≤ 0x200A) || n == 0x2028 || n == 0x2029 || n == 0x202F ||
    n == 0x205F || n == 0x3000

/-- The text after its leading blanks. -/
def dropBlank (text : List Char) : List Char :=
  text.dropWhile isBlank

/-- The text before its trailing blanks. -/
def dropTrailingBlank (text : List Char) : List Char :=
  (text.reverse.dropWhile isBlank).reverse

/-- The text without leading and trailing blanks. -/
def trim (text : List Char) : List Char :=
  dropTrailingBlank (dropBlank text)

/-- Whether a text holds blanks only. -/
def allBlank (text : List Char) : Bool :=
  text.all isBlank

theorem dropBlank_eq_nil_iff
    (text : List Char) :
    dropBlank text = [] ↔ allBlank text = true := by
  induction text with
  | nil => simp [dropBlank, allBlank]
  | cons c text ih =>
      simp only [dropBlank, allBlank] at ih ⊢
      by_cases h : isBlank c = true <;> simp [h, ih]

end HandlerLint.Text
