/-!
# Characters of the ASCII range

Letters are folded, and space between groups is skipped, by rules that know ASCII alone: a letter
outside it keeps its case, and a vertical tab or a wide space is no space here.

## Main definitions

* `Text.isSpace` — space, tab, line feed, form feed and carriage return
* `Text.lower`, `Text.upper` — case folding of the 26 letters
* `Text.byteLength` — the length of a text in UTF-8 bytes
* `Text.splitOn` — the pieces of a text between the occurrences of a character
-/

namespace TriggerSheet.Text

/-- Space, tab, line feed, form feed and carriage return. -/
def isSpace (c : Char) : Bool :=
  c == ' ' || c == '\t' || c == '\n' || c == '\x0c' || c == '\r'

/-- A text with the letters `A` to `Z` in lower case. -/
def lower (s : List Char) : List Char := s.map Char.toLower

/-- A text with the letters `a` to `z` in upper case. -/
def upper (s : List Char) : List Char := s.map Char.toUpper

/-- The number of UTF-8 bytes of a text. -/
def byteLength (s : List Char) : Nat := s.foldr (fun c n => c.utf8Size + n) 0

/-- The pieces of a text between the occurrences of `separator`; there is always at least one. -/
def splitOn (separator : Char) : List Char → List (List Char)
  | [] => [[]]
  | c :: rest =>
    if c = separator then [] :: splitOn separator rest
    else
      match splitOn separator rest with
      | piece :: pieces => (c :: piece) :: pieces
      | [] => [[c]]

/-- Whether `s` starts with `lead`. -/
def startsWith (lead s : List Char) : Bool := lead.isPrefixOf s

end TriggerSheet.Text
