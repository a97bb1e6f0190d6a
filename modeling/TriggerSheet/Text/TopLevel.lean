/-!
# Splitting at top-level commas

A list of calls or arguments is separated by commas. A comma between parentheses belongs to a
piece; a closing parenthesis that closes nothing leaves the depth at zero, so it never hides a
later comma.

## Main definitions

* `Text.depthAfter` — how one character changes the depth of parentheses
* `Text.topLevelPieces` — the pieces of a text between its top-level commas, untrimmed
-/

namespace TriggerSheet.Text

/-- The depth of parentheses after `c`, when it was `depth` before; it never falls below zero. -/
def depthAfter (depth : Nat) (c : Char) : Nat :=
  if c = '(' then depth + 1 else if c = ')' then depth - 1 else depth

/-- The pieces that remain to be read at `depth`, where `taken` is what the current piece holds so
far, last character first. -/
def topLevelPiecesFrom (depth : Nat) (taken : List Char) : List Char → List (List Char)
  | [] => [taken.reverse]
  | c :: rest =>
    if c = ',' ∧ depth = 0 then taken.reverse :: topLevelPiecesFrom 0 [] rest
    else topLevelPiecesFrom (depthAfter depth c) (c :: taken) rest

/-- The pieces of a text between its top-level commas; there is always at least one. -/
def topLevelPieces (s : List Char) : List (List Char) := topLevelPiecesFrom 0 [] s

end TriggerSheet.Text
