/-!
# Backslash escapes

`escape` puts a backslash before each reserved character and leaves all else as it is, so that a
reader in which a backslash makes the next character literal sees the text itself.
-/

namespace Catalogue.Text

/-- The text with a backslash before each of its reserved characters. -/
def escape (reserved : List Char) : List Char → List Char
  | [] => []
  | c :: s => if c ∈ reserved then '\\' :: c :: escape reserved s else c :: escape reserved s

/-- The characters with a meaning in the backend's regular expressions. -/
def queryReserved : List Char :=
  ['\\', '.', '?', '+', '*', '|', '\x7b', '\x7d', '[', ']', '(', ')', '"', '#', '@', '&', '<', '>',
   '~']

/-- The characters with a meaning in the pattern of a tokenizer. -/
def tokenReserved : List Char :=
  ['\\', '.', '+', '*', '?', '(', ')', '|', '[', ']', '\x7b', '\x7d', '^', '$', '#', '&', '-', '~']

theorem escape_append (reserved s t : List Char) :
    escape reserved (s ++ t) = escape reserved s ++ escape reserved t := by
  induction s with
  | nil => rfl
  | cons c s ih => by_cases h : c ∈ reserved <;> simp [escape, h, ih]

end Catalogue.Text
