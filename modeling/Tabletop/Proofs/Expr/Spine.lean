import Tabletop.Proofs.Phrase.Outcome

/-! The left side of an expression. The operations down the left side of an expression are taken apart
into a first operand and the links behind it; right operands stay whole. A chain behind another one is
assembled by chaining its links behind what stands to its left. -/
namespace Tabletop

theorem Assembly.ok_andThen {α β : Type} (rolls : List Roll) (a : α) (second : α → Assembly β) :
    (Assembly.mk rolls (.ok a)).andThen second = ⟨rolls ++ (second a).rolls, (second a).outcome⟩ := rfl

namespace Expr

def spine : Expr → Sequence
  | .binary left operator right => ⟨left.spine.first, left.spine.links ++ [(operator, right)]⟩
  | .number value => ⟨.number value, []⟩
  | .dice roll => ⟨.dice roll, []⟩
  | .call name argument => ⟨.call name argument, []⟩

def onto (taken : Expr → Expr) (expr : Expr) : Expr :=
  (Sequence.mk (taken expr.spine.first) expr.spine.links).chained

theorem onto_binary (taken : Expr → Expr) (left right : Expr) (operator : String) :
    (Expr.binary left operator right).onto taken = .binary (left.onto taken) operator right := by
  simp only [onto, spine, Sequence.chained, List.foldl_append, List.foldl_cons, List.foldl_nil]

theorem onto_operand (taken : Expr → Expr) (expr : Expr) (operand : ¬ expr.IsOperation) :
    expr.onto taken = taken expr := by
  cases expr with
  | binary left operator right => exact absurd trivial operand
  | number value => rfl
  | dice roll => rfl
  | call name argument => rfl

/-- Chaining the left side again makes the expression that it is of. -/
theorem onto_id (expr : Expr) : expr.onto id = expr := by
  induction expr with
  | binary left operator right left_ih right_ih => rw [onto_binary, left_ih]
  | number value => rfl
  | dice roll => rfl
  | call name argument ih => rfl

/-- The difference of two numbers is not kept together behind a sum. -/
example : (Expr.binary (.number 2) "-" (.number 3)).onto (.binary (.number 1) "+") =
    .binary (.binary (.number 1) "+" (.number 2)) "-" (.number 3) := rfl

end Expr

namespace Phrase

/-- What a chain means changes with what stands to its left only by taking up its first operand. -/
theorem Chain.assemblyOnto_onto (chain : Chain) (join join' taken : Expr → Expr) (value : Expr)
    (admissible : chain.Admissible) (short : chain.overlong? = none)
    (related : ∀ operand : Expr, ¬ operand.IsOperation → (join operand).onto taken = join' operand)
    (ok : (chain.assemblyOnto join).outcome = .ok value) :
    chain.assemblyOnto join' = ⟨(chain.assemblyOnto join).rolls, .ok (value.onto taken)⟩ := by
  match chain with
  | .last term =>
    rw [Chain.assemblyOnto] at ok ⊢
    obtain ⟨operand, found, same, rolls⟩ := Assembly.andThen_ok _ _ _ ok
    cases same
    obtain ⟨_, alone, _⟩ := term.assembly_settled operand admissible short found
    rw [Chain.assemblyOnto, rolls, Assembly.andThen, found, related operand alone]
    rfl
  | .link term joint rest =>
    rw [Chain.assemblyOnto] at ok ⊢
    obtain ⟨operand, found, following, rolls⟩ := Assembly.andThen_ok _ _ _ ok
    obtain ⟨first, others⟩ := Option.or_eq_none_iff.mp short
    obtain ⟨_, alone, _⟩ := term.assembly_settled operand admissible.1 first found
    have onward := rest.assemblyOnto_onto _ (.binary (join' operand) (String.ofList [joint.operator.char]))
      taken value admissible.2.2 others (by
        intro next _
        rw [Expr.onto_binary, related operand alone]) following
    rw [Chain.assemblyOnto, rolls, Assembly.andThen, found]
    simp only [onward]

theorem Chain.assemblyOnto_of_assembly (chain : Chain) (taken : Expr → Expr) (rolls : List Roll)
    (value : Expr) (admissible : chain.Admissible) (short : chain.overlong? = none)
    (assembled : chain.assembly = ⟨rolls, .ok value⟩) :
    chain.assemblyOnto taken = ⟨rolls, .ok (value.onto taken)⟩ := by
  have ok : (chain.assemblyOnto id).outcome = .ok value := congrArg Assembly.outcome assembled
  have same : (chain.assemblyOnto id).rolls = rolls := congrArg Assembly.rolls assembled
  rw [chain.assemblyOnto_onto id taken taken value admissible short
    (fun operand alone => operand.onto_operand taken alone) ok, same]

mutual
theorem Term.depth_of_assembly (term : Term) (value : Expr) (ok : term.assembly.outcome = .ok value) :
    value.depth = term.depth := by
  match term with
  | .dice dice =>
    rw [Term.assembly] at ok
    cases rolled : dice.roll with
    | error failure =>
      rw [rolled] at ok
      cases ok
    | ok roll =>
      rw [rolled] at ok
      cases ok
      rfl
  | .number negative digits =>
    rw [Term.assembly] at ok
    cases converted : Numeral.overlong? digits with
    | some length =>
      rw [converted] at ok
      cases ok
    | none =>
      rw [converted] at ok
      cases ok
      rfl
  | .call name beforeOpening afterOpening argument beforeClosing =>
    rw [Term.assembly] at ok
    obtain ⟨inner, found, same, _⟩ := Assembly.andThen_ok _ _ _ ok
    cases same
    have depth := argument.depth_of_assemblyOnto id inner 0 (fun operand => (Nat.zero_max _).symm) found
    rw [Expr.depth, depth, Nat.zero_max, Term.depth]
theorem Chain.depth_of_assemblyOnto (chain : Chain) (join : Expr → Expr) (value : Expr) (lead : Nat)
    (joined : ∀ operand, (join operand).depth = max lead operand.depth)
    (ok : (chain.assemblyOnto join).outcome = .ok value) : value.depth = max lead chain.depth := by
  match chain with
  | .last term =>
    rw [Chain.assemblyOnto] at ok
    obtain ⟨operand, found, same, _⟩ := Assembly.andThen_ok _ _ _ ok
    cases same
    rw [joined, term.depth_of_assembly operand found, Chain.depth]
  | .link term joint rest =>
    rw [Chain.assemblyOnto] at ok
    obtain ⟨operand, found, following, _⟩ := Assembly.andThen_ok _ _ _ ok
    have first := term.depth_of_assembly operand found
    have whole := rest.depth_of_assemblyOnto _ value (max lead term.depth) (by
      intro next
      rw [Expr.depth, joined, first]) following
    rw [whole, Chain.depth, Nat.max_assoc]
end

theorem Chain.depth_of_assembly (chain : Chain) (rolls : List Roll) (value : Expr)
    (assembled : chain.assembly = ⟨rolls, .ok value⟩) : value.depth = chain.depth := by
  have ok : (chain.assemblyOnto id).outcome = .ok value := congrArg Assembly.outcome assembled
  rw [chain.depth_of_assemblyOnto id value 0 (fun operand => (Nat.zero_max _).symm) ok, Nat.zero_max]

end Phrase
end Tabletop
