import Tabletop.Proofs.Expr.Written
import Tabletop.Proofs.Node.Assemble
import Tabletop.Proofs.Reading.Exactness

/-! Reading what was written. The normal form of an expression is read back as the expression chained
from left to right, unless the digits behind a leading d of a name are too many: such a name is tried
as a dice term first. -/
namespace Tabletop

theorem read_complete (phrase : Phrase) (text : String) (derives : phrase.Derives text)
    (shallow : phrase.chain.depth ≤ Nesting.limit) :
    read text = match phrase.chain.overlong? with
      | none => Reading.ofAssembly phrase.chain.assembly
      | some digits => .error (.overlong digits) := by
  rw [read, readTree, readPhrase_complete phrase text derives shallow]
  cases short : phrase.chain.overlong? with
  | none =>
    change phrase.node.reading = _
    rw [Node.reading, Phrase.node, phrase.chain.assemble_node _ _ derives.chain short]
  | some digits => rfl

namespace Expr
open Phrase

theorem derives_describe (expr : Expr) (writable : expr.Writable) :
    (Phrase.mk [] expr.chain []).Derives expr.describe := by
  refine ⟨?_, layout_nil, expr.chain_admissible writable, layout_nil⟩
  rw [Phrase.text, expr.chain_text writable, describe, String.toList_ofList, List.nil_append,
    List.append_nil]

theorem read_describe (expr : Expr) (writable : expr.Writable)
    (shallow : expr.depth ≤ Nesting.limit) :
    read expr.describe =
      match expr.names.findSome? fun name => nameOverlong? name.toList with
      | none => .ok ⟨expr.reassociated, expr.rolls⟩
      | some digits => .error (.overlong digits) := by
  have derives := expr.derives_describe writable
  rw [read_complete _ _ derives (expr.chain_depth.trans_le shallow), expr.chain_overlong? writable,
    Chain.assembly, expr.chain_assemblyOnto writable id]
  rfl

/-- The normal form of an expression is read back exactly if none of its names has too many digits
behind a leading d. It is read as the expression chained from left to right with its rolls in order,
which is the expression itself exactly if no operation is the right operand of an operation. The first
name with too many digits stops the reading. -/
theorem read_describe_exact (expr : Expr) (writable : expr.Writable)
    (shallow : expr.depth ≤ Nesting.limit) :
    (read expr.describe = .ok ⟨expr.reassociated, expr.rolls⟩ ↔
      ∀ name ∈ expr.names, nameOverlong? name.toList = none) ∧
    (∀ digits, (expr.names.findSome? fun name => nameOverlong? name.toList) = some digits →
      read expr.describe = .error (.overlong digits)) ∧
    ∀ reading, read expr.describe = .ok reading → (reading.expression = expr ↔ expr.LeftLeaning) := by
  have outcome := expr.read_describe writable shallow
  rw [← List.findSome?_eq_none_iff, ← expr.reassociated_eq_self_iff]
  cases first : expr.names.findSome? fun name => nameOverlong? name.toList with
  | none =>
    rw [first] at outcome
    refine ⟨⟨fun _ => rfl, fun _ => outcome⟩, ?_, ?_⟩
    · intro digits stopped
      cases stopped
    · intro reading found
      rw [outcome] at found
      cases found
      exact Iff.rfl
  | some digits =>
    rw [first] at outcome
    refine ⟨⟨?_, ?_⟩, ?_, ?_⟩
    · intro found
      rw [outcome] at found
      cases found
    · intro none
      cases none
    · intro other same
      cases same
      exact outcome
    · intro reading found
      rw [outcome] at found
      cases found

/-- A subtraction on the right is taken apart, and the call and the dice term are read back. -/
theorem read_describe_exact_subtraction :
    read (Expr.binary (.number 1) "-" (.binary (.dice ⟨2, ⟨6, by decide⟩, .none, none, none⟩) "-"
      (.call "floor" (.number (-3))))).describe =
      .ok ⟨.binary (.binary (.number 1) "-" (.dice ⟨2, ⟨6, by decide⟩, .none, none, none⟩)) "-"
        (.call "floor" (.number (-3))), [⟨2, ⟨6, by decide⟩, .none, none, none⟩]⟩ := by
  have isName : IsName "floor".toList := by
    refine ⟨⟨'f', ['l', 'o', 'o', 'r'], rfl, by decide, List.all_eq_true.mp rfl⟩, ?_⟩
    intro rest same
    cases same
  have short : Numeral.Short 1 ∧ Numeral.Short 2 ∧ Numeral.Short 3 ∧ Numeral.Short 6 := by
    unfold Numeral.Short
    decide
  have roll : Roll.Writable ⟨2, ⟨6, by decide⟩, .none, none, none⟩ := by
    refine ⟨short.2.1, short.2.2.2, ?_, ?_⟩
    · intro selection member
      cases member
    · intro threshold member
      cases member
  have writable : (Expr.binary (.number 1) "-" (.binary (.dice ⟨2, ⟨6, by decide⟩, .none, none, none⟩)
      "-" (.call "floor" (.number (-3))))).Writable :=
    ⟨short.1, by decide, roll, by decide, isName, short.2.2.1⟩
  apply (read_describe_exact _ writable (by decide)).1.mpr
  intro name member
  rw [List.mem_singleton.mp member]
  rfl

theorem value_zeros (n : Nat) : Numeral.value (List.replicate n '0') = 0 := by
  rw [Numeral.value, Nat.ofDigitChars_replicate_zero, Nat.mul_zero]

theorem isName_zeros (n : Nat) : IsName ('d' :: List.replicate n '0') := by
  refine ⟨⟨'d', _, rfl, by decide, ?_⟩, ?_⟩
  · intro c member
    rw [List.eq_of_mem_replicate member]
    decide
  · intro rest same positive
    rw [← (List.cons.inj same).2, List.takeWhile_replicate, if_pos (by decide)] at positive
    exact absurd positive.2 (Nat.not_lt.mpr (value_zeros n).le)

theorem writable_zeros (n : Nat) :
    (Expr.call (String.ofList ('d' :: List.replicate n '0')) (.number 1)).Writable := by
  constructor
  · rw [String.toList_ofList]
    exact isName_zeros n
  · change (Numeral.ofNat 1).length ≤ Numeral.maxDigits
    decide

theorem read_describe_zeros (n : Nat) (long : Numeral.maxDigits < n) :
    read (Expr.call (String.ofList ('d' :: List.replicate n '0')) (.number 1)).describe =
      .error (.overlong n) := by
  have stopped : (Expr.call (String.ofList ('d' :: List.replicate n '0')) (.number 1)).names.findSome?
      (fun name => nameOverlong? name.toList) = some n := by
    rw [names, List.findSome?_cons, String.toList_ofList, nameOverlong?, List.takeWhile_replicate,
      if_pos (by decide),
      Numeral.overlong?, List.length_replicate, if_neg (Nat.not_le_of_lt long)]
  rw [read_describe _ (writable_zeros n) (Nat.le_of_ble_eq_true rfl), stopped]

/-- With 4301 zeros such a name is not read back. -/
theorem not_read_describe_zeros :
    (Expr.call (String.ofList ('d' :: List.replicate 4301 '0')) (.number 1)).Writable ∧
    (Expr.call (String.ofList ('d' :: List.replicate 4301 '0')) (.number 1)).depth ≤ Nesting.limit ∧
    (Expr.call (String.ofList ('d' :: List.replicate 4301 '0')) (.number 1)).LeftLeaning ∧
    read (Expr.call (String.ofList ('d' :: List.replicate 4301 '0')) (.number 1)).describe =
      .error (.overlong 4301) :=
  ⟨writable_zeros 4301, Nat.le_of_ble_eq_true rfl, trivial, read_describe_zeros 4301 (by decide)⟩

end Expr
end Tabletop
