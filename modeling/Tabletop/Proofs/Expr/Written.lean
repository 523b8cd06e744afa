import Tabletop.Proofs.Expr.Reassociation
import Tabletop.Proofs.Roll.Written

/-! Expressions as chains. The normal form of an expression is the writing of a chain in which every
operator stands between two blanks and calls hold no layout. The chain of an operation is that of its
left operand with that of its right operand behind it, which is why its meaning is chained again. -/
namespace Tabletop

theorem Assembly.andThen_andThen {α β γ : Type} (first : Assembly α) (second : α → Assembly β)
    (third : β → Assembly γ) :
    (first.andThen second).andThen third = first.andThen fun a => (second a).andThen third := by
  obtain ⟨rolls, outcome⟩ := first
  cases outcome with
  | error failure => rfl
  | ok a =>
    simp only [andThen]
    cases (second a).outcome with
    | error failure => rfl
    | ok b => simp only [List.append_assoc]

namespace Phrase

def Chain.join : Chain → Joint → Chain → Chain
  | .last term, joint, next => .link term joint next
  | .link term joint rest, joint', next => .link term joint (rest.join joint' next)

theorem Chain.join_text (first : Chain) (joint : Joint) (next : Chain) :
    (first.join joint next).text = first.text ++ (joint.text ++ next.text) := by
  cases first with
  | last term => rfl
  | link term joint' rest =>
    rw [Chain.join, Chain.text, rest.join_text joint next, Chain.text, List.append_assoc,
      List.append_assoc]

theorem Chain.join_admissible (first : Chain) (joint : Joint) (next : Chain)
    (left : first.Admissible) (between : joint.Admissible) (right : next.Admissible) :
    (first.join joint next).Admissible := by
  match first, left with
  | .last term, admissible => exact ⟨admissible, between, right⟩
  | .link term joint' rest, ⟨admissible, joins, others⟩ =>
    exact ⟨admissible, joins, rest.join_admissible joint next others between right⟩

theorem Chain.join_depth (first : Chain) (joint : Joint) (next : Chain) :
    (first.join joint next).depth = max first.depth next.depth := by
  cases first with
  | last term => rfl
  | link term joint' rest =>
    rw [Chain.join, Chain.depth, rest.join_depth joint next, Chain.depth, Nat.max_assoc]

theorem Chain.join_overlong? (first : Chain) (joint : Joint) (next : Chain) :
    (first.join joint next).overlong? = first.overlong?.or next.overlong? := by
  cases first with
  | last term => rfl
  | link term joint' rest =>
    rw [Chain.join, Chain.overlong?, rest.join_overlong? joint next, Chain.overlong?, Option.or_assoc]

theorem Chain.join_assemblyOnto (first : Chain) (joint : Joint) (next : Chain) (taken : Expr → Expr) :
    (first.join joint next).assemblyOnto taken =
      (first.assemblyOnto taken).andThen fun value =>
        next.assemblyOnto (.binary value (String.ofList [joint.operator.char])) := by
  cases first with
  | last term =>
    rw [Chain.join, Chain.assemblyOnto, Chain.assemblyOnto, Assembly.andThen_andThen]
    rfl
  | link term joint' rest =>
    rw [Chain.join, Chain.assemblyOnto, Chain.assemblyOnto, Assembly.andThen_andThen]
    congr 1
    funext value
    exact rest.join_assemblyOnto joint next _

def Operator.ofText : String → Operator
  | "+" => .plus
  | "-" => .minus
  | "*" => .times
  | _ => .over

theorem Operator.ofText_char (text : String) (known : text ∈ ["+", "-", "*", "/"]) :
    [(ofText text).char] = text.toList := by
  simp only [List.mem_cons, List.not_mem_nil, or_false] at known
  rcases known with rfl | rfl | rfl | rfl <;> rfl

def Term.ofInt : Int → Term
  | .ofNat n => .number false (Numeral.ofNat n)
  | .negSucc n => .number true (Numeral.ofNat (n + 1))

theorem Term.ofInt_text (value : Int) : (Term.ofInt value).text = Numeral.ofInt value := by
  cases value <;> rfl

theorem Term.ofInt_admissible (value : Int) : (Term.ofInt value).Admissible := by
  cases value <;> exact ⟨Numeral.ofNat_ne_nil _, digits_ofNat _⟩

theorem Term.ofInt_assembly (value : Int) (short : Numeral.Short value.natAbs) :
    (Term.ofInt value).assembly = .value (.number value) := by
  cases value with
  | ofNat n =>
    have converted := (Numeral.overlong?_eq_none (Numeral.ofNat n)).mpr short
    rw [Term.ofInt, Term.assembly, converted]
    simp only [Numeral.signedValue, Numeral.value_ofNat]
    rfl
  | negSucc n =>
    have converted := (Numeral.overlong?_eq_none (Numeral.ofNat (n + 1))).mpr short
    rw [Term.ofInt, Term.assembly, converted]
    simp only [Numeral.signedValue, Numeral.value_ofNat]
    rfl

end Phrase

namespace Expr
open Phrase

/-- What can be written in notation: the four operators, names, and numbers that are not too long to
be converted back. -/
def Writable : Expr → Prop
  | .number value => Numeral.Short value.natAbs
  | .dice roll => roll.Writable
  | .binary left operator right =>
    left.Writable ∧ operator ∈ ["+", "-", "*", "/"] ∧ right.Writable
  | .call name argument => IsName name.toList ∧ argument.Writable

def depth : Expr → Nat
  | .number _ => 0
  | .dice _ => 0
  | .binary left _ right => max left.depth right.depth
  | .call _ argument => argument.depth + 1

def names : Expr → List String
  | .number _ => []
  | .dice _ => []
  | .binary left _ right => left.names ++ right.names
  | .call name argument => name :: argument.names

def chain : Expr → Chain
  | .number value => .last (.ofInt value)
  | .dice roll => .last (.dice roll.dice)
  | .binary left operator right => left.chain.join ⟨[' '], .ofText operator, [' ']⟩ right.chain
  | .call name argument => .last (.call name.toList [] [] argument.chain [])

theorem chain_text (expr : Expr) (writable : expr.Writable) :
    expr.chain.text = expr.writtenOnto [] := by
  induction expr with
  | number value =>
    rw [chain, Chain.text, Term.ofInt_text, writtenOnto, List.append_nil]
  | dice roll =>
    rw [chain, Chain.text, Term.text, roll.dice_text, writtenOnto, List.append_nil]
  | binary left operator right left_ih right_ih =>
    obtain ⟨first, known, second⟩ := writable
    have onto := left.writtenOnto_append [] (' ' :: (operator.toList ++ ' ' :: right.writtenOnto []))
    rw [List.nil_append] at onto
    rw [chain, Chain.join_text, left_ih first, right_ih second, writtenOnto, onto,
      ← Operator.ofText_char operator known]
    rfl
  | call name argument ih =>
    have onto := argument.writtenOnto_append [] [')']
    rw [List.nil_append] at onto
    rw [chain, Chain.text, Term.text, ih writable.2, writtenOnto, onto]
    rfl

theorem chain_admissible (expr : Expr) (writable : expr.Writable) : expr.chain.Admissible := by
  induction expr with
  | number value => exact Term.ofInt_admissible value
  | dice roll => exact roll.dice_admissible
  | binary left operator right left_ih right_ih =>
    apply Chain.join_admissible
    · exact left_ih writable.1
    · exact ⟨layout_blank, layout_blank⟩
    · exact right_ih writable.2.2
  | call name argument ih => exact ⟨writable.1, layout_nil, layout_nil, ih writable.2, layout_nil⟩

theorem chain_depth (expr : Expr) : expr.chain.depth = expr.depth := by
  induction expr with
  | number value => cases value <;> rfl
  | dice roll => rfl
  | binary left operator right left_ih right_ih =>
    rw [chain, Chain.join_depth, left_ih, right_ih, depth]
  | call name argument ih => rw [chain, Chain.depth, Term.depth, ih, depth]

/-- In a normal form only the digits in a name can be too many. -/
theorem chain_overlong? (expr : Expr) (writable : expr.Writable) :
    expr.chain.overlong? = expr.names.findSome? fun name => nameOverlong? name.toList := by
  induction expr with
  | number value => cases value <;> rfl
  | dice roll => exact roll.dice_overlong? writable
  | binary left operator right left_ih right_ih =>
    rw [chain, Chain.join_overlong?, left_ih writable.1, right_ih writable.2.2, names,
      List.findSome?_append]
  | call name argument ih =>
    rw [chain, Chain.overlong?, Term.overlong?, ih writable.2, names, List.findSome?_cons]
    cases nameOverlong? name.toList <;> rfl

theorem chain_assemblyOnto (expr : Expr) (writable : expr.Writable) (taken : Expr → Expr) :
    expr.chain.assemblyOnto taken =
      ⟨expr.rolls, .ok (Sequence.mk (taken expr.sequence.first) expr.sequence.links).chained⟩ := by
  induction expr generalizing taken with
  | number value =>
    rw [chain, Chain.assemblyOnto, Term.ofInt_assembly value writable]
    rfl
  | dice roll =>
    rw [chain, Chain.assemblyOnto, Term.assembly, roll.dice_roll writable]
    rfl
  | binary left operator right left_ih right_ih =>
    obtain ⟨first, known, second⟩ := writable
    have written : String.ofList [(Operator.ofText operator).char] = operator := by
      rw [Operator.ofText_char operator known, String.ofList_toList]
    rw [chain, Chain.join_assemblyOnto, left_ih first, written]
    simp only [Assembly.andThen, right_ih second, rolls, sequence, Sequence.chained,
      List.foldl_append, List.foldl_cons]
  | call name argument ih =>
    rw [chain, Chain.assemblyOnto, Term.assembly, ih writable.2, String.ofList_toList]
    simp only [Assembly.andThen, Assembly.value, List.append_nil]
    rfl

end Expr
end Tabletop
