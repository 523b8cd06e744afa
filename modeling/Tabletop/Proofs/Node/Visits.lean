import Tabletop.Proofs.Node.Build
import Tabletop.Proofs.Node.Numerals
import Tabletop.Proofs.Phrase.Outcome

/-! The visit of a tree. Building visits nodes from left to right and makes one check of each before what is
inside it. The first visit whose check fails ends it, so the rolls that were completed are those of the dice
terms visited before. -/
namespace Tabletop

/-- A visit of a node: for its value, or for the operator between two values. -/
inductive Visit where
  | value (node : Node)
  | operator (node : Node)

namespace Visit

def failure? : Visit → Option Failure
  | .operator node => if node.rule = .operator then none else some (node.violation .operator)
  | .value node =>
    match node.rule with
    | .expression =>
      if node.children.length = 1 then none else some (node.violation (.oneChild node.children.length))
    | .term =>
      if node.children.length = 1 then none else some (node.violation (.oneChild node.children.length))
    | .operation => if node.children.length % 2 = 1 then none else some (node.violation .alternation)
    | .function =>
      if node.find? .identifier ≠ none ∧ node.find? .expression ≠ none then none
      else some (node.violation .function)
    | .diceRoll =>
      match node.roll with
      | .ok _ => none
      | .error failure => some failure
    | .number =>
      match node.signed with
      | .ok _ => none
      | .error failure => some failure
    | _ => some (node.violation .rule)

def roll? : Visit → Option Roll
  | .operator _ => none
  | .value node => if node.rule = .diceRoll then node.roll.toOption else none

def completed (visits : List Visit) : List Roll :=
  (visits.takeWhile fun visit => visit.failure?.isNone).filterMap roll?

end Visit

namespace Node

mutual
def visits : Node → List Visit
  | ⟨rule, text, start, stop, children⟩ =>
    .value ⟨rule, text, start, stop, children⟩ ::
      match rule with
      | .expression => visitsOnly children
      | .term => visitsOnly children
      | .operation => visitsOperation children
      | .function => visitsArgument children
      | _ => []
def visitsOnly : List Node → List Visit
  | [child] => child.visits
  | _ => []
def visitsOperation : List Node → List Visit
  | [] => []
  | first :: links => first.visits ++ visitsLinks links
def visitsLinks : List Node → List Visit
  | operator :: operand :: links => .operator operator :: (operand.visits ++ visitsLinks links)
  | _ => []
def visitsArgument : List Node → List Visit
  | [] => []
  | child :: rest => if child.rule = .expression then child.visits else visitsArgument rest
end

end Node

/-- The assembly fails at the first visit whose check fails, with the rolls completed before. -/
structure Assembly.Follows {α : Type} (assembly : Assembly α) (visits : List Visit) : Prop where
  rolls : assembly.rolls = Visit.completed visits
  failed : assembly.failed? = visits.findSome? Visit.failure?

namespace Visit

theorem completed_failing (done rest : List Visit) (failing : Visit) (failure : Failure)
    (passes : ∀ visit ∈ done, visit.failure? = none) (fails : failing.failure? = some failure) :
    completed (done ++ failing :: rest) = done.filterMap roll? := by
  have inside : ∀ visit ∈ done, visit.failure?.isNone = true := by
    intro visit member
    rw [passes visit member, Option.isNone_none]
  rw [completed, List.takeWhile_append_of_pos inside, List.takeWhile_cons_of_neg, List.append_nil]
  simp [fails]

theorem completed_of_fails (visits more : List Visit) (failure : Failure)
    (fails : visits.findSome? failure? = some failure) : completed (visits ++ more) = completed visits := by
  obtain ⟨done, failing, rest, rfl, fails, passes⟩ := List.findSome?_eq_some_iff.mp fails
  rw [List.append_assoc, List.cons_append, completed_failing _ _ _ _ passes fails,
    completed_failing _ _ _ _ passes fails]

theorem completed_of_passes (visits more : List Visit) (passes : visits.findSome? failure? = none) :
    completed (visits ++ more) = visits.filterMap roll? ++ completed more := by
  have inside : ∀ visit ∈ visits, visit.failure?.isNone = true := by
    intro visit member
    rw [List.findSome?_eq_none_iff.mp passes visit member, Option.isNone_none]
  rw [completed, List.takeWhile_append_of_pos inside, List.filterMap_append]
  rfl

end Visit

namespace Assembly

variable {α β : Type}

theorem follows_nil (a : α) : (value a).Follows [] := ⟨rfl, rfl⟩

theorem follows_fail (visit : Visit) (rest : List Visit) (failure : Failure)
    (fails : visit.failure? = some failure) : (fail failure : Assembly α).Follows (visit :: rest) := by
  have nothing := Visit.completed_failing [] rest visit failure (List.forall_mem_nil _) fails
  refine ⟨nothing.symm, ?_⟩
  rw [List.findSome?_cons_of_isSome (by rw [fails]; rfl), fails]
  rfl

theorem follows_completed (visit : Visit) (roll : Roll) (a : α) (passes : visit.failure? = none)
    (rolled : visit.roll? = some roll) : (completed roll a).Follows [visit] := by
  have added := Visit.completed_of_passes [visit] [] (by rw [List.findSome?_singleton, passes])
  refine ⟨?_, ?_⟩
  · rw [List.append_nil] at added
    rw [added, List.filterMap_cons_some rolled]
    rfl
  · rw [List.findSome?_singleton, passes]
    rfl

theorem follows_pass (assembly : Assembly α) (visit : Visit) (rest : List Visit)
    (passes : visit.failure? = none) (plain : visit.roll? = none) (follows : assembly.Follows rest) :
    assembly.Follows (visit :: rest) := by
  have added := Visit.completed_of_passes [visit] rest (by rw [List.findSome?_singleton, passes])
  refine ⟨?_, ?_⟩
  · rw [List.singleton_append, List.filterMap_cons_none plain, List.filterMap_nil, List.nil_append] at added
    rw [added, follows.rolls]
  · rw [List.findSome?_cons_of_isNone (by rw [passes]; rfl), follows.failed]

theorem follows_andThen (first : Assembly α) (second : α → Assembly β) (visits more : List Visit)
    (follows : first.Follows visits) (goes : ∀ a, (second a).Follows more) :
    (first.andThen second).Follows (visits ++ more) := by
  obtain ⟨added, outcome⟩ := first
  obtain ⟨rolls, failed⟩ := follows
  cases outcome with
  | error failure =>
    -- The second assembly is not made, and none of its visits is.
    refine ⟨?_, ?_⟩
    · rw [Visit.completed_of_fails visits more failure failed.symm]
      exact rolls
    · rw [List.findSome?_append, ← failed]
      rfl
  | ok a =>
    have none : visits.findSome? Visit.failure? = none := failed.symm
    have all := Visit.completed_of_passes visits [] none
    rw [List.append_nil] at all
    have last := goes a
    refine ⟨?_, ?_⟩
    · have appended : added ++ (second a).rolls = Visit.completed (visits ++ more) := by
        rw [Visit.completed_of_passes visits more none, ← last.rolls, show added = _ from rolls, all]
        exact congrArg (· ++ _) (List.append_nil _)
      exact appended
    · rw [List.findSome?_append, none, Option.none_or]
      exact last.failed

end Assembly

namespace Node
open Assembly (follows_nil follows_fail follows_completed follows_pass follows_andThen)

mutual
/-- A tree is assembled in the order of its visits. -/
theorem assemble_follows (node : Node) : node.assemble.Follows node.visits := by
  match node with
  | ⟨rule, text, start, stop, children⟩ =>
    unfold assemble visits
    cases rule with
    | expression => exact assembleOnly_follows _ _ children rfl rfl
    | term => exact assembleOnly_follows _ _ children rfl rfl
    | operation => exact assembleOperation_follows _ _ children rfl rfl
    | function =>
      have arguments := assembleArgument?_follows children
      dsimp only
      cases named : Node.find? ⟨.function, text, start, stop, children⟩ .identifier with
      | none => exact follows_fail _ _ _ (if_neg fun both => both.1 named)
      | some name =>
        have isNamed : Node.find? ⟨.function, text, start, stop, children⟩ .identifier ≠ none := by
          rw [named]
          exact Option.some_ne_none name
        generalize assembleArgument? children = argument at arguments ⊢
        cases argument with
        | none => exact follows_fail _ _ _ (if_neg fun both => both.2 arguments)
        | some argument =>
          refine follows_pass _ _ _ (if_pos ⟨isNamed, arguments.1⟩) rfl ?_
          have follows := follows_andThen _ _ _ _ arguments.2 fun value => follows_nil (Expr.call name.text value)
          rwa [List.append_nil] at follows
    | diceRoll =>
      dsimp only
      cases rolled : Node.roll ⟨.diceRoll, text, start, stop, children⟩ with
      | ok roll =>
        refine follows_completed (.value ⟨.diceRoll, text, start, stop, children⟩) roll _ ?_ ?_
        · simp [Visit.failure?, rolled]
        · rw [Visit.roll?, if_pos rfl, rolled]
          rfl
      | error failure => exact follows_fail _ _ _ (by simp [Visit.failure?, rolled])
    | number =>
      dsimp only
      cases signed : Node.signed ⟨.number, text, start, stop, children⟩ with
      | ok value => exact follows_pass _ _ _ (by simp [Visit.failure?, signed]) rfl (follows_nil _)
      | error failure => exact follows_fail _ _ _ (by simp [Visit.failure?, signed])
    | _ => exact follows_fail _ _ _ rfl
theorem assembleOnly_follows (visit : Visit) (otherwise : Failure) (nodes : List Node)
    (checks : visit.failure? = if nodes.length = 1 then none else some otherwise)
    (plain : visit.roll? = none) :
    (assembleOnly otherwise nodes).Follows (visit :: visitsOnly nodes) := by
  match nodes with
  | [] => exact follows_fail _ _ _ checks
  | [child] => exact follows_pass _ _ _ checks plain child.assemble_follows
  | first :: second :: rest =>
    refine follows_fail _ _ _ (checks.trans (if_neg ?_))
    simp
theorem assembleOperation_follows (visit : Visit) (otherwise : Failure) (nodes : List Node)
    (checks : visit.failure? = if nodes.length % 2 = 1 then none else some otherwise)
    (plain : visit.roll? = none) :
    (assembleOperation otherwise nodes).Follows (visit :: visitsOperation nodes) := by
  match nodes with
  | [] => exact follows_fail _ _ _ checks
  | first :: links =>
    rw [List.length_cons] at checks
    rw [assembleOperation, visitsOperation]
    split
    · rename_i even
      refine follows_pass _ _ _ (checks.trans (if_pos (by omega))) plain ?_
      exact follows_andThen _ _ _ _ first.assemble_follows fun left => assembleLinks_follows left links
    · rename_i odd
      exact follows_fail _ _ _ (checks.trans (if_neg (by omega)))
theorem assembleLinks_follows (left : Expr) (links : List Node) :
    (assembleLinks left links).Follows (visitsLinks links) := by
  match links with
  | [] => exact follows_nil left
  | [operator] => exact follows_nil left
  | operator :: operand :: links =>
    rw [assembleLinks, visitsLinks]
    split
    · rename_i named
      refine follows_pass _ (.operator operator) _ (if_pos named) rfl ?_
      exact follows_andThen _ _ _ _ operand.assemble_follows fun right =>
        assembleLinks_follows (.binary left operator.text right) links
    · rename_i other
      exact follows_fail (.operator operator) _ _ (if_neg other)
theorem assembleArgument?_follows (nodes : List Node) :
    match assembleArgument? nodes with
    | none => nodes.find? (fun child => child.rule = .expression) = none
    | some argument => nodes.find? (fun child => child.rule = .expression) ≠ none ∧
        argument.Follows (visitsArgument nodes) := by
  match nodes with
  | [] => rfl
  | child :: rest =>
    rw [assembleArgument?, visitsArgument]
    by_cases found : child.rule = .expression
    · rw [if_pos found, if_pos found, List.find?_cons_of_pos (by simpa using found)]
      exact ⟨Option.some_ne_none child, child.assemble_follows⟩
    · rw [if_neg found, if_neg found, List.find?_cons_of_neg (by simpa using found)]
      exact assembleArgument?_follows rest
end

end Node

namespace Assembly

/-- The rolls of the assembly are those of its expression that do not come before. -/
def Tallies (before : List Roll) (assembly : Assembly Expr) : Prop :=
  ∀ expr, assembly.outcome = .ok expr → before ++ assembly.rolls = expr.rolls

theorem tallies_value (expr : Expr) : (value expr).Tallies expr.rolls := by
  intro other ok
  cases ok
  exact List.append_nil _

theorem tallies_fail (before : List Roll) (failure : Failure) : (fail failure).Tallies before := by
  intro expr ok
  cases ok

theorem tallies_andThen (before : List Roll) (first : Assembly Expr) (second : Expr → Assembly Expr)
    (tallies : first.Tallies []) (goes : ∀ a, (second a).Tallies (before ++ a.rolls)) :
    (first.andThen second).Tallies before := by
  intro expr ok
  obtain ⟨a, found, last, rolls⟩ := andThen_ok _ _ _ ok
  have firstly := tallies a found
  rw [List.nil_append] at firstly
  rw [rolls, firstly, ← List.append_assoc]
  exact goes a expr last

end Assembly

namespace Node
open Assembly (tallies_value tallies_fail tallies_andThen)

mutual
/-- What a tree is assembled to has the rolls that were completed on the way. -/
theorem assemble_tallies (node : Node) : node.assemble.Tallies [] := by
  match node with
  | ⟨rule, text, start, stop, children⟩ =>
    unfold assemble
    cases rule with
    | expression => exact assembleOnly_tallies _ children
    | term => exact assembleOnly_tallies _ children
    | operation => exact assembleOperation_tallies _ children
    | function =>
      have arguments := assembleArgument?_tallies children
      dsimp only
      cases Node.find? ⟨.function, text, start, stop, children⟩ .identifier with
      | none => exact tallies_fail _ _
      | some name =>
        generalize assembleArgument? children = argument at arguments ⊢
        cases argument with
        | none => exact tallies_fail _ _
        | some argument =>
          exact tallies_andThen [] argument _ (arguments argument rfl) fun value =>
            tallies_value (Expr.call name.text value)
    | diceRoll =>
      dsimp only
      split
      · rename_i roll _
        intro expr ok
        cases ok
        rfl
      · exact tallies_fail _ _
    | number =>
      dsimp only
      cases Node.signed ⟨.number, text, start, stop, children⟩ with
      | ok value => exact tallies_value (Expr.number value)
      | error failure => exact tallies_fail _ _
    | _ => exact tallies_fail _ _
theorem assembleOnly_tallies (otherwise : Failure) (nodes : List Node) :
    (assembleOnly otherwise nodes).Tallies [] := by
  match nodes with
  | [] => exact tallies_fail _ _
  | [child] => exact child.assemble_tallies
  | first :: second :: rest => exact tallies_fail _ _
theorem assembleOperation_tallies (otherwise : Failure) (nodes : List Node) :
    (assembleOperation otherwise nodes).Tallies [] := by
  match nodes with
  | [] => exact tallies_fail _ _
  | first :: links =>
    rw [assembleOperation]
    split
    · exact tallies_andThen [] _ _ first.assemble_tallies fun left => assembleLinks_tallies left links
    · exact tallies_fail _ _
theorem assembleLinks_tallies (left : Expr) (links : List Node) :
    (assembleLinks left links).Tallies left.rolls := by
  match links with
  | [] => exact tallies_value left
  | [operator] => exact tallies_value left
  | operator :: operand :: links =>
    rw [assembleLinks]
    split
    · exact tallies_andThen left.rolls _ _ operand.assemble_tallies fun right =>
        assembleLinks_tallies (.binary left operator.text right) links
    · exact tallies_fail _ _
theorem assembleArgument?_tallies (nodes : List Node) (argument : Assembly Expr)
    (found : assembleArgument? nodes = some argument) : argument.Tallies [] := by
  match nodes with
  | [] => cases found
  | child :: rest =>
    rw [assembleArgument?] at found
    split at found
    · cases found
      exact child.assemble_tallies
    · exact assembleArgument?_tallies rest argument found
end

end Node

end Tabletop
