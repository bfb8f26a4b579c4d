/-!
# Blank characters

The characters that count as blank around a name, and their removal from both ends of a text.
-/

namespace Splice.Text

/-- The characters with the Unicode property `White_Space`. -/
def isBlank (character : Char) : Bool :=
  let code := character.toNat
  (0x09 ≤ code && code ≤ 0x0d) || code == 0x20 || code == 0x85 || code == 0xa0 ||
    code == 0x1680 || (0x2000 ≤ code && code ≤ 0x200a) || code == 0x2028 || code == 0x2029 ||
    code == 0x202f || code == 0x205f || code == 0x3000

/-- Remove the blanks at both ends. -/
def trim (text : List Char) : List Char :=
  ((text.dropWhile isBlank).reverse.dropWhile isBlank).reverse

theorem length_dropWhile_le {α : Type} (accept : α → Bool) (values : List α) :
    (values.dropWhile accept).length ≤ values.length :=
  (List.dropWhile_sublist accept).length_le

theorem length_trim_le (text : List Char) : (trim text).length ≤ text.length := by
  have inner := length_dropWhile_le isBlank text
  have outer := length_dropWhile_le isBlank (text.dropWhile isBlank).reverse
  simp only [List.length_reverse] at outer
  simp only [trim, List.length_reverse]
  omega

end Splice.Text
