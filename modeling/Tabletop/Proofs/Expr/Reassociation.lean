import Tabletop.Expr

/-! Chaining to the left. The operands and operators of nested operations in order are chained again
from the left, also within the arguments of calls. This changes an expression exactly if an operation
stands as a right operand somewhere. -/
namespace Tabletop.Expr

def IsOperation : Expr → Prop
  | .binary _ _ _ => True
  | _ => False

/-- No operation is the right operand of an operation. -/
def LeftLeaning : Expr → Prop
  | .number _ => True
  | .dice _ => True
  | .binary left _ right => left.LeftLeaning ∧ right.LeftLeaning ∧ ¬ right.IsOperation
  | .call _ argument => argument.LeftLeaning

structure Sequence where
  first : Expr
  links : List (String × Expr)

def Sequence.chained (sequence : Sequence) : Expr :=
  sequence.links.foldl (fun left link => .binary left link.1 link.2) sequence.first

def sequence : Expr → Sequence
  | .number value => ⟨.number value, []⟩
  | .dice roll => ⟨.dice roll, []⟩
  | .binary left operator right =>
    ⟨left.sequence.first, left.sequence.links ++ (operator, right.sequence.first) :: right.sequence.links⟩
  | .call name argument => ⟨.call name argument.sequence.chained, []⟩

/-- An expression with its operations chained from left to right. -/
def reassociated (expr : Expr) : Expr := expr.sequence.chained

def Operand (expr : Expr) : Prop := expr.LeftLeaning ∧ ¬ expr.IsOperation

theorem Sequence.chained_leftLeaning (links : List (String × Expr)) (first : Expr)
    (leans : first.LeftLeaning) (operands : ∀ link ∈ links, Operand link.2) :
    (Sequence.mk first links).chained.LeftLeaning := by
  induction links generalizing first with
  | nil => exact leans
  | cons link rest ih =>
    apply ih (.binary first link.1 link.2)
    · exact ⟨leans, operands link (by simp)⟩
    · intro other member
      exact operands other (by simp [member])

theorem sequence_operands (expr : Expr) :
    Operand expr.sequence.first ∧ ∀ link ∈ expr.sequence.links, Operand link.2 := by
  induction expr with
  | number value => exact ⟨⟨trivial, id⟩, by simp [sequence]⟩
  | dice roll => exact ⟨⟨trivial, id⟩, by simp [sequence]⟩
  | binary left operator right left_ih right_ih =>
    refine ⟨left_ih.1, ?_⟩
    intro link member
    rcases List.mem_append.mp member with inside | inside
    · exact left_ih.2 link inside
    · rcases List.mem_cons.mp inside with rfl | inside
      · exact right_ih.1
      · exact right_ih.2 link inside
  | call name argument ih =>
    have leans := Sequence.chained_leftLeaning _ _ ih.1.1 ih.2
    exact ⟨⟨leans, id⟩, by simp [sequence]⟩

theorem reassociated_leftLeaning (expr : Expr) : expr.reassociated.LeftLeaning := by
  obtain ⟨first, links⟩ := expr.sequence_operands
  exact Sequence.chained_leftLeaning _ _ first.1 links

theorem links_of_not_isOperation (expr : Expr) (operand : ¬ expr.IsOperation) :
    expr.sequence.links = [] := by
  cases expr with
  | binary left operator right => exact absurd trivial operand
  | number value => rfl
  | dice roll => rfl
  | call name argument => rfl

theorem reassociated_of_leftLeaning (expr : Expr) (leans : expr.LeftLeaning) :
    expr.reassociated = expr := by
  induction expr with
  | number value => rfl
  | dice roll => rfl
  | binary left operator right left_ih right_ih =>
    obtain ⟨left_leans, right_leans, operand⟩ := leans
    have alone := right.links_of_not_isOperation operand
    have same := right_ih right_leans
    rw [reassociated, Sequence.chained, alone, List.foldl_nil] at same
    rw [reassociated, sequence, Sequence.chained, List.foldl_append, alone, List.foldl_cons,
      List.foldl_nil, same]
    exact congrArg (Expr.binary · operator right) (left_ih left_leans)
  | call name argument ih => exact congrArg (Expr.call name) (ih leans)

theorem reassociated_eq_self_iff (expr : Expr) : expr.reassociated = expr ↔ expr.LeftLeaning := by
  constructor
  · intro same
    rw [← same]
    exact expr.reassociated_leftLeaning
  · exact expr.reassociated_of_leftLeaning

/-- Chaining a subtraction on the right again takes its second operand out of it. -/
example : reassociated (.binary (.number 1) "-" (.binary (.number 2) "-" (.number 3))) =
    .binary (.binary (.number 1) "-" (.number 2)) "-" (.number 3) := rfl

end Tabletop.Expr
