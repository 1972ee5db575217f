/-!
# White space and letter case

White space in the sense of the character property `White_Space`, trimming at both ends, and ASCII
lower case: the three text operations that every literal of the theme format goes through.
-/

namespace Livery.Text

/-- A character with the property `White_Space`. -/
def isBlank (c : Char) : Bool :=
  let n := c.toNat
  (0x09 ≤ n && n ≤ 0x0D) || n == 0x20 || n == 0x85 || n == 0xA0 || n == 0x1680 ||
    (0x2000 ≤ n && n ≤ 0x200A) || n == 0x2028 || n == 0x2029 || n == 0x202F || n == 0x205F ||
    n == 0x3000

/-- The characters of `cs` left when white space (`isBlank`) is taken off both ends. -/
def trimmed (cs : List Char) : List Char :=
  ((cs.dropWhile isBlank).reverse.dropWhile isBlank).reverse

/-- The text `s` without the white space at its ends, as `trimmed` has it. -/
def trim (s : String) : String :=
  String.ofList (trimmed s.toList)

/-- A text with `A`–`Z` in lower case and every other character as it was. -/
def lower (s : String) : String :=
  String.ofList (s.toList.map Char.toLower)

/-- Nothing but characters that are `isBlank`. -/
def isAllBlank (s : String) : Bool :=
  s.toList.all isBlank

@[simp] theorem trim_toList (s : String) : (trim s).toList = trimmed s.toList := by
  simp [trim]

@[simp] theorem lower_toList (s : String) : (lower s).toList = s.toList.map Char.toLower := by
  simp [lower]

theorem dropWhile_eq_nil_iff_all {α : Type} (p : α → Bool) (l : List α) :
    l.dropWhile p = [] ↔ l.all p = true := by
  induction l with
  | nil => simp
  | cons a l ih => by_cases h : p a <;> simp [h, ih]

end Livery.Text
