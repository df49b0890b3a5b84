import Catalogue.Text.Case

/-!
# Names in lower case with underscores

`snake` turns the name of an entity type into the name of its index: `UserProfile` becomes
`user_profile`, `HTTPLog` becomes `http_log`, `App::Models` becomes `app_models`. A word starts at
an uppercase letter after a lowercase letter or a digit, at the last uppercase letter of a run that
a lowercase letter follows, and after a run of separators.
-/

namespace Catalogue.Text

/-- The separators that become one underscore: colon, backslash, hyphen and space. -/
def isSeparator (c : Char) : Bool :=
  c == ':' || c == '\\' || c == '-' || c == ' '

/-- Whether an uppercase letter starts a word between these neighbours. -/
def startsWord (prev next : Option Char) : Bool :=
  prev.any (fun c => isLower c || c.isDigit) || (prev.any isUpper && next.any isLower)

/-- The rest of a name, where `prev` is the character read last and `last` the one written
last. -/
def snakeFrom (prev last : Option Char) : List Char → List Char
  | [] => []
  | c :: s =>
    if isUpper c then
      let word := if startsWord prev s.head? then '_' :: lower c else lower c
      word ++ snakeFrom (some c) word.getLast? s
    else if isSeparator c then
      if last.any (· != '_') then '_' :: snakeFrom (some c) (some '_') s
      else snakeFrom (some c) last s
    else c :: snakeFrom (some c) (some c) s

/-- The name in lower case, with an underscore between words. -/
def snake (name : List Char) : List Char :=
  snakeFrom none none name

end Catalogue.Text
