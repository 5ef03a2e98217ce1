/-!
# Parts of a text

- `parts`: the pieces of a text between the occurrences of a separating character. There is always
  one more piece than there are separators, and pieces may be empty.
-/

namespace MiniLex

/-- The pieces of a text between separators. -/
def parts (separator : Char) : List Char → List (List Char)
  | [] => [[]]
  | c :: cs =>
    if c = separator then [] :: parts separator cs
    else
      match parts separator cs with
      | [] => [[c]]
      | part :: rest => (c :: part) :: rest

end MiniLex
