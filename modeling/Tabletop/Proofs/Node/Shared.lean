import Tabletop.Proofs.Node.Visits

/-! Building trees in turn onto one shared list of rolls. Whatever the trees are and however the calls end,
the list only grows at its end: by the rolls of the expression where there is one, and else by the rolls of
the dice terms that were completed before the visit came to the node that fails. -/
namespace Tabletop.Node

def added (node : Node) : List Roll := Visit.completed node.visits

/-- How a list of rolls grows when a tree is built onto it. -/
structure Grows (node : Node) (rolls : List Roll) : Prop where
  grown : (node.buildOnto rolls).2 = rolls ++ node.added
  value : ∀ expr, (node.buildOnto rolls).1 = .ok expr → node.added = expr.rolls
  failed : ∀ failure, (node.buildOnto rolls).1 = .error failure →
    ∃ done failing rest, node.visits = done ++ failing :: rest ∧
      (∀ visit ∈ done, visit.failure? = none) ∧ failing.failure? = some failure ∧
        node.added = done.filterMap Visit.roll?

theorem buildOnto_eq (node : Node) (rolls : List Roll) :
    node.buildOnto rolls = (node.assemble.outcome, rolls ++ node.assemble.rolls) := node.build_writes rolls

theorem grows (node : Node) (rolls : List Roll) : node.Grows rolls := by
  have built := node.buildOnto_eq rolls
  have follows := node.assemble_follows
  constructor
  · rw [built, added, ← follows.rolls]
  · intro expr ok
    rw [built] at ok
    rw [added, ← follows.rolls]
    exact node.assemble_tallies expr ok
  · intro failure error
    rw [built] at error
    have stops : node.visits.findSome? Visit.failure? = some failure := by
      rw [← follows.failed, Assembly.failed?, show node.assemble.outcome = .error failure from error]
    obtain ⟨done, failing, rest, visits, fails, passes⟩ := List.findSome?_eq_some_iff.mp stops
    refine ⟨done, failing, rest, visits, passes, fails, ?_⟩
    rw [added, visits]
    exact Visit.completed_failing done rest failing failure passes fails

/-- Every call finds the list as the calls before it have left it, which is the list of the beginning with
what each of them added, and makes it grow at its end only: by the rolls of the expression that it returns,
or by the rolls of the dice terms that it completed before it failed. -/
theorem buildAll_grows (rolls : List Roll) (nodes : List Node) :
    buildAll rolls nodes =
      (nodes.mapIdx fun i node => node.buildOnto (rolls ++ (nodes.take i).flatMap added)) ∧
    ∀ node before, Grows node before := by
  refine ⟨?_, grows⟩
  induction nodes generalizing rolls with
  | nil => rfl
  | cons node rest ih =>
    have left := (node.grows rolls).grown
    rw [buildAll, List.mapIdx_cons, left, ih]
    simp only [List.take_zero, List.flatMap_nil, List.append_nil, List.take_succ_cons, List.flatMap_cons,
      List.append_assoc]

/-- A dice term stays in the list when the operand behind it fails, and the next call goes on from there. -/
example :
    let dice : Node := ⟨.diceRoll, "d6", 0, 2, [⟨.dieSize, "6", 1, 2, []⟩]⟩
    let sum : Node := ⟨.operation, "d6+x", 0, 4,
      [dice, ⟨.operator, "+", 2, 3, []⟩, ⟨.identifier, "x", 3, 4, []⟩]⟩
    ((buildAll [] [sum, dice]).map fun built => (built.1.toBool, built.2.length)) = [(false, 1), (true, 2)] := by
  decide +kernel

end Tabletop.Node
