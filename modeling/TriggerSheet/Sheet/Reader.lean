import TriggerSheet.Note
import TriggerSheet.Sheet.Action
import TriggerSheet.Sheet.Comment
import TriggerSheet.Sheet.Group

/-!
# Reading sheets

A sheet is read in three layers: the groups of the text without comments are blocks, the groups of
the body of a block are clauses, and the body of a clause holds actions. Reading never fails; what
is passed over is noted.

## Main definitions

* `Clause.readAll` — the clauses of the body of a block
* `Sheet.parse` — the blocks of a sheet
* `Sheet.notes` — what is noted while a sheet is read
-/

namespace TriggerSheet

/-- The clause of a group, unless its name is empty. -/
def Clause.ofGroup? (g : Group) : Option Clause :=
  if g.name.isEmpty then none else some ⟨String.ofList g.name, Action.readAll g.body⟩

/-- The clauses of the body of a block. -/
def Clause.readAll (body : List Char) : List Clause :=
  (Group.all .block body).filterMap Clause.ofGroup?

/-- The block of a group. -/
def Block.ofGroup (g : Group) : Block := ⟨String.ofList g.name, Clause.readAll g.body⟩

/-- What is noted when a group is read, whatever its body holds. -/
def Group.notes (g : Group) : List Note :=
  if g.unclosed = 0 then [] else [.unterminated g.start g.unclosed]

/-- What is noted about a piece, with `inner` for what is noted about the body of a group. -/
def Piece.notes (inner : Group → List Note) : Piece → List Note
  | stray offset => [.strayBrace offset]
  | group g => g.notes ++ inner g

/-- What is noted when a clause is read. -/
def Clause.notes (g : Group) : List Note := if g.name.isEmpty then [.namelessClause] else []

/-- What is noted while the body of a block is read. -/
def Block.notes (g : Group) : List Note :=
  (Piece.all .block g.body).flatMap (Piece.notes Clause.notes)

namespace Sheet

/-- The blocks of a text without comments. -/
def blocksOf (code : List Char) : List Block := (Group.all .sheet code).map Block.ofGroup

/-- The blocks of a sheet. -/
def parse (source : String) : List Block := blocksOf (Comment.strip source.toList)

/-- What is noted while a sheet is read, in order. -/
def notes (source : String) : List Note :=
  (Piece.all .sheet (Comment.strip source.toList)).flatMap (Piece.notes Block.notes) ++
    [.read (parse source).length]

/-- The written form of a sheet, one block a line. -/
def text (blocks : List Block) : String := "\n".intercalate (blocks.map Block.text)

end Sheet

end TriggerSheet
