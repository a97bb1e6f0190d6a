import Mathlib.Algebra.BigOperators.Ring.List
import Mathlib.Algebra.Ring.Nat
import TriggerSheet.CommandLine
import TriggerSheet.Proofs.Effect.Index

/-!
# The verdicts of a report

A report looks a call up in the index of the table and then asks whether the property accepts the
effect. So it lets exactly those calls run that are accepted, its counts are those of the calls of
the sheet, and a strict run of the program fails exactly on a sheet with a call that is not
accepted.

## Main definitions

* `Clause.calls`, `Block.calls` — the effect calls, each with its property, in order

## Main results

* `Verdict.ofCall_eq`, `Verdict.skips_ofCall` — the verdict on a call
* `Summary.skipped_ofBlocks` — the skipped calls of a report are those that are not accepted
* `CommandLine.exit_eq_one_iff` — when a strict run fails
-/

namespace TriggerSheet

/-- The effect calls of a clause, each with the property that it is for, in order. -/
def Clause.calls (c : Clause) : List (String × Call) :=
  c.actions.flatMap fun a => a.calls.map (a.property, ·)

/-- The effect calls of some blocks, each with the property that it is for, in order. -/
def Block.calls (blocks : List Block) : List (String × Call) :=
  blocks.flatMap fun b => b.clauses.flatMap Clause.calls

namespace Verdict

variable (property : String) (call : Call)

/-- A verdict asks first for the table, and then for the property. -/
theorem ofCall_eq :
    ofCall property call =
      if call.name ∈ Category.listed then
        if acceptsEffect property call.name then runs else incompatible
      else unlisted := by
  by_cases mem : call.name ∈ Category.listed
  · have some : ¬(Category.accepting call.name).isEmpty = true :=
      fun none => (Category.isEmpty_accepting call.name).mp none mem
    rw [ofCall, if_neg some, if_pos mem, acceptsEffect]
    cases Category.ofProperty? property <;> rfl
  · rw [ofCall, if_pos ((Category.isEmpty_accepting call.name).mpr mem), if_neg mem]

/-- Calls are skipped unless the property accepts the effect. -/
theorem skips_ofCall : (ofCall property call).skips = !acceptsEffect property call.name := by
  cases accepted : acceptsEffect property call.name with
  | true => rw [ofCall_eq, if_pos (mem_listed_of_acceptsEffect accepted), accepted]; rfl
  | false =>
    rw [ofCall_eq, accepted]
    split <;> rfl

end Verdict

variable (blocks : List Block)

theorem Block.verdicts_eq :
    Block.verdicts blocks = (Block.calls blocks).map fun call => Verdict.ofCall call.1 call.2 := by
  simp only [Block.verdicts, Block.calls, Clause.calls, List.map_flatMap, List.map_map]
  rfl

theorem Summary.calls_ofBlocks : (ofBlocks blocks).calls = (Block.calls blocks).length := by
  rw [ofBlocks, Block.verdicts_eq, List.length_map]

theorem Summary.triggers_ofBlocks :
    (ofBlocks blocks).triggers = (blocks.map (·.clauses.length)).sum := List.length_flatMap

/-- The skipped calls of a report are those that are not accepted. -/
theorem Summary.skipped_ofBlocks :
    (ofBlocks blocks).skipped =
      (Block.calls blocks).countP fun call => !acceptsEffect call.1 call.2.name := by
  rw [ofBlocks, Block.verdicts_eq, List.countP_map]
  exact List.countP_congr fun call _ => by rw [Function.comp_apply, Verdict.skips_ofCall]

/-- A strict run on a text that is not blank fails if a call of the sheet is not accepted, and
otherwise succeeds. -/
theorem CommandLine.exit_eq_one_iff {arguments : List String} {inspection : Inspection}
    {read : Origin → Except ReadFailure ByteArray} {bytes : ByteArray} {source : String}
    (asked : Request.ofArguments arguments = .inspect inspection)
    (strict : inspection.strict = true) (found : read inspection.origin = .ok bytes)
    (text : String.fromUTF8? bytes = some source) (filled : ¬source.toList.all Text.isBlank) :
    (run arguments read).exit = 1 ↔
      ∃ call ∈ Block.calls (Sheet.parse source), acceptsEffect call.1 call.2.name = false := by
  have counted : (run arguments read).exit =
      if 0 < (Summary.ofBlocks (Sheet.parse source)).skipped then 1 else 0 := by
    simp only [run, asked, Request.outcome, found, Inspection.outcome, text, Inspection.report,
      if_neg filled, strict, true_and]
  rw [counted, Summary.skipped_ofBlocks]
  simp [List.countP_pos_iff]

end TriggerSheet
