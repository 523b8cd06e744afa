import Tabletop.Node.Build

/-! Building onto a list of rolls, by what a tree assembles to. The list is left as it was found, with the
rolls of the assembly behind it, whether the assembly has a value or fails; so what is built does not
depend on the list. -/
namespace Tabletop

/-- The building has the outcome of the assembly and adds its rolls to the end of the list. -/
def Building.Writes {α : Type} (building : Building α) (assembly : Assembly α) : Prop :=
  ∀ rolls, building.run.run rolls = (assembly.outcome, rolls ++ assembly.rolls)

namespace Building

variable {α β : Type}

theorem writes_value (a : α) : (return a : Building α).Writes (.value a) := by
  intro rolls
  rw [Assembly.value, List.append_nil]
  rfl

theorem writes_fail (failure : Failure) : (throw failure : Building α).Writes (.fail failure) := by
  intro rolls
  rw [Assembly.fail, List.append_nil]
  rfl

theorem writes_except (result : Except Failure α) :
    (liftM result : Building α).Writes (.ofExcept result) := by
  intro rolls
  cases result with
  | ok a =>
    rw [Assembly.ofExcept, Assembly.value, List.append_nil]
    rfl
  | error failure =>
    rw [Assembly.ofExcept, Assembly.fail, List.append_nil]
    rfl

theorem writes_completed (roll : Roll) (a : α) :
    (do modifyThe (List Roll) (· ++ [roll]); return a : Building α).Writes (.completed roll a) := by
  intro rolls
  rfl

theorem run_bind (first : Building α) (second : α → Building β) (rolls : List Roll) :
    (first >>= second).run.run rolls = match first.run.run rolls with
      | (.ok a, left) => (second a).run.run left
      | (.error failure, left) => (.error failure, left) := by
  have stepped : (first >>= second).run.run rolls =
      ExceptT.bindCont second (first.run.run rolls).1 (first.run.run rolls).2 := rfl
  rw [stepped]
  obtain ⟨outcome, left⟩ := first.run.run rolls
  cases outcome <;> rfl

theorem writes_bind (first : Building α) (second : α → Building β) (firstly : Assembly α)
    (secondly : α → Assembly β) (writes : first.Writes firstly) (goes : ∀ a, (second a).Writes (secondly a)) :
    (first >>= second).Writes (firstly.andThen secondly) := by
  intro rolls
  obtain ⟨added, outcome⟩ := firstly
  rw [run_bind, writes rolls]
  cases outcome with
  | error failure => rfl
  | ok a => exact (goes a (rolls ++ added)).trans (by rw [List.append_assoc]; rfl)

end Building

namespace Node
open Building (writes_value writes_fail writes_except writes_completed writes_bind)

theorem buildRoll_writes (node : Node) :
    node.buildRoll.Writes (match node.roll with
      | .ok roll => .completed roll (.dice roll)
      | .error failure => .fail failure) := by
  have same : (match node.roll with
      | .ok roll => .completed roll (.dice roll)
      | .error failure => .fail failure) =
      (Assembly.ofExcept node.roll).andThen fun roll => .completed roll (Expr.dice roll) := by
    cases node.roll <;> rfl
  rw [same]
  exact writes_bind _ _ _ _ (writes_except node.roll) fun roll => writes_completed roll (Expr.dice roll)

mutual
/-- Building a tree onto a list writes what the tree assembles to. -/
theorem build_writes (node : Node) : node.build.Writes node.assemble := by
  match node with
  | ⟨rule, text, start, stop, children⟩ =>
    unfold build assemble
    cases rule with
    | expression => exact buildOnly_writes _ children
    | term => exact buildOnly_writes _ children
    | operation => exact buildOperation_writes _ children
    | function =>
      have arguments := buildArgument?_writes children
      dsimp only
      generalize buildArgument? children = built, assembleArgument? children = assembled at arguments ⊢
      cases Node.find? ⟨.function, text, start, stop, children⟩ .identifier with
      | none => exact writes_fail _
      | some name =>
        cases arguments with
        | none => exact writes_fail _
        | some writes => exact writes_bind _ _ _ _ writes fun value => writes_value (Expr.call name.text value)
    | diceRoll => exact buildRoll_writes _
    | number => exact writes_bind _ _ _ _ (writes_except _) fun value => writes_value (Expr.number value)
    | _ => exact writes_fail _
theorem buildOnly_writes (otherwise : Failure) (nodes : List Node) :
    (buildOnly otherwise nodes).Writes (assembleOnly otherwise nodes) := by
  match nodes with
  | [] => exact writes_fail otherwise
  | [child] => exact child.build_writes
  | first :: second :: rest => exact writes_fail otherwise
theorem buildOperation_writes (otherwise : Failure) (nodes : List Node) :
    (buildOperation otherwise nodes).Writes (assembleOperation otherwise nodes) := by
  match nodes with
  | [] => exact writes_fail otherwise
  | first :: links =>
    rw [buildOperation, assembleOperation]
    split
    · exact writes_bind _ _ _ _ first.build_writes fun left => buildLinks_writes left links
    · exact writes_fail otherwise
theorem buildLinks_writes (left : Expr) (links : List Node) :
    (buildLinks left links).Writes (assembleLinks left links) := by
  match links with
  | [] => exact writes_value left
  | [operator] => exact writes_value left
  | operator :: operand :: links =>
    rw [buildLinks, assembleLinks]
    split
    · exact writes_bind _ _ _ _ operand.build_writes fun right =>
        buildLinks_writes (.binary left operator.text right) links
    · exact writes_fail _
theorem buildArgument?_writes (nodes : List Node) :
    Option.Rel Building.Writes (buildArgument? nodes) (assembleArgument? nodes) := by
  match nodes with
  | [] => exact .none
  | child :: rest =>
    rw [buildArgument?, assembleArgument?]
    split
    · exact .some child.build_writes
    · exact buildArgument?_writes rest
end

end Node

end Tabletop
