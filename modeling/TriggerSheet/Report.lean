import TriggerSheet.Activation
import TriggerSheet.Effect.Category
import TriggerSheet.Sheet.Basic

/-!
# Reports on sheets

A report shows the blocks of a sheet, how each clause is activated, and for each effect call
whether an engine with all standard effects would run it. The counts of the report are taken
from the same verdicts.

## Main definitions

* `Verdict.ofCall` — what becomes of a call
* `Summary.ofBlocks` — the counts
* `Report.text` — the report
-/

namespace TriggerSheet

/-- What becomes of a call when its clause fires. -/
inductive Verdict where
  | runs
  | incompatible
  | unlisted
  deriving DecidableEq, Repr

namespace Verdict

/-- The verdict on a call for a property: no category lists the effect, the category of the
property does not permit it, or it runs. -/
def ofCall (property : String) (call : Call) : Verdict :=
  if (Category.accepting call.name).isEmpty then unlisted
  else
    match Category.ofProperty? property with
    | some category => if category.accepts call.name then runs else incompatible
    | none => incompatible

/-- Whether the call would be skipped. -/
def skips (v : Verdict) : Bool := v != runs

end Verdict

/-- The verdicts on the calls of an action, in order. -/
def Action.verdicts (a : Action) : List Verdict := a.calls.map (Verdict.ofCall a.property)

/-- The verdicts on all calls of some blocks, in order. -/
def Block.verdicts (blocks : List Block) : List Verdict :=
  blocks.flatMap fun b => b.clauses.flatMap fun c => c.actions.flatMap Action.verdicts

/-- The counts of a report. -/
structure Summary where
  blocks : Nat
  triggers : Nat
  calls : Nat
  skipped : Nat
  deriving DecidableEq, Repr

/-- The counts for some blocks. -/
def Summary.ofBlocks (blocks : List Block) : Summary :=
  let verdicts := Block.verdicts blocks
  { blocks := blocks.length
    triggers := (blocks.flatMap Block.clauses).length
    calls := verdicts.length
    skipped := verdicts.countP Verdict.skips }

/-- How a part of a report is set off. -/
inductive Ink where
  | bold
  | dim
  | red
  | green
  | yellow
  | blue
  | cyan
  | gray
  deriving DecidableEq, Repr

/-- The number of the terminal attribute. -/
def Ink.code : Ink → String
  | bold => "1"
  | dim => "2"
  | red => "31"
  | green => "32"
  | yellow => "33"
  | blue => "34"
  | cyan => "36"
  | gray => "90"

/-- Whether a report uses terminal attributes. -/
structure Coloring where
  enabled : Bool
  deriving DecidableEq, Repr

/-- A text set off with a terminal attribute, if they are used. -/
def Coloring.apply (p : Coloring) (ink : Ink) (s : String) : String :=
  if p.enabled then "\x1b[" ++ ink.code ++ "m" ++ s ++ "\x1b[0m" else s

namespace Report

variable (p : Coloring)

/-- The mark behind a call. -/
def mark (property : String) : Verdict → String
  | .runs => p.apply .green "✓ runs"
  | .incompatible => p.apply .red ("✗ not allowed on `" ++ property ++ "`")
  | .unlisted => p.apply .red "✗ unknown effect"

/-- The line of a call. -/
def callLine (property : String) (call : Call) : String :=
  "          " ++ p.apply .cyan call.text ++ " " ++ mark p property (Verdict.ofCall property call)

/-- The lines of an action. -/
def actionLines (a : Action) : List String :=
  ("        " ++ p.apply .yellow (a.property ++ ":") ++ " " ++ p.apply .dim a.value) ::
    a.calls.map (callLine p a.property)

/-- The lines of a clause. -/
def clauseLines (c : Clause) : List String :=
  ("      " ++ p.apply .blue c.name ++ " " ++ p.apply .dim "│" ++ "  " ++
      p.apply .dim "activation:" ++ " " ++ p.apply .cyan (Activation.ofName c.name).text) ::
    c.actions.flatMap (actionLines p)

/-- The lines of the block at a position. -/
def blockLines (position : Nat) (b : Block) : List String :=
  ("  " ++ p.apply .gray ("[" ++ toString position ++ "]") ++ " " ++
      p.apply .bold (p.apply .green b.selector)) ::
    b.clauses.flatMap (clauseLines p)

/-- The lines of all blocks, or what may have gone wrong when there is none. -/
def blocksLines (blocks : List Block) : List String :=
  if blocks.isEmpty then
    [p.apply .dim "  No rule blocks recovered",
      "",
      p.apply .yellow "Possible reasons:",
      "  • The source has no `selector \x7b ... \x7d` group",
      "  • Every block was unterminated or nameless"]
  else (blocks.mapIdx (blockLines p)).flatten

/-- The line of the counts. -/
def summaryLine (s : Summary) : String :=
  "  Blocks: " ++ p.apply .green (toString s.blocks) ++
    "  │  Triggers: " ++ p.apply .cyan (toString s.triggers) ++
    "  │  Calls: " ++ p.apply .blue (toString s.calls) ++
    "  │  Skipped: " ++ p.apply (if 0 < s.skipped then .red else .dim) (toString s.skipped)

/-- The lines of a report. -/
def lines (source : String) (blocks : List Block) : List String :=
  ["", p.apply .bold (p.apply .cyan ("⚙  Rules: " ++ source)), "",
    p.apply .gray "━━━ Blocks ━━━"] ++
  blocksLines p blocks ++
  ["", p.apply .gray "━━━ Summary ━━━", summaryLine p (Summary.ofBlocks blocks), ""]

/-- A report on the blocks that were read from `source`. -/
def text (source : String) (blocks : List Block) : String :=
  String.join ((lines p source blocks).map (· ++ "\n"))

end Report

end TriggerSheet
