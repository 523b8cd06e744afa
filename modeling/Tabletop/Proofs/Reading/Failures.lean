import Tabletop.Proofs.Node.Numerals
import Tabletop.Proofs.Reading.Exactness

/-! How reading fails. A text is refused, or a run of digits in it is too long; a tree that was read
from a text is never at fault otherwise. -/
namespace Tabletop

theorem ofAssembly_ok (assembly : Assembly Expr) :
    (∃ reading, Reading.ofAssembly assembly = .ok reading) ↔ assembly.failed? = none := by
  obtain ⟨rolls, outcome⟩ := assembly
  cases outcome with
  | ok expression => exact ⟨fun _ => rfl, fun _ => ⟨_, rfl⟩⟩
  | error failure =>
    constructor
    · rintro ⟨reading, read⟩
      cases read
    · intro none
      cases none

theorem ofAssembly_error (assembly : Assembly Expr) (failure : Failure) :
    Reading.ofAssembly assembly = .error failure ↔ assembly.failed? = some failure := by
  obtain ⟨rolls, outcome⟩ := assembly
  cases outcome with
  | ok expression =>
    constructor <;> intro impossible <;> cases impossible
  | error found =>
    constructor
    · intro same
      rw [← Except.error.inj same]
      rfl
    · intro same
      rw [← Option.some.inj same]
      rfl

theorem findSome?_overlong (nodes : List Node) :
    nodes.findSome? Node.overlong? =
      (nodes.find? fun node => Numeral.maxDigits < node.digitCount).map Node.overlong := by
  induction nodes with
  | nil => rfl
  | cons node rest ih =>
    by_cases short : node.digitCount ≤ Numeral.maxDigits
    · have none : node.overlong? = none := if_pos short
      rw [List.findSome?_cons_of_isNone (by rw [none]; rfl),
        List.find?_cons_of_neg (by simpa using short), ih]
    · have some : node.overlong? = some node.overlong := if_neg short
      rw [List.findSome?_cons, some, List.find?_cons_of_pos (by simpa using short), Option.map_some]

/-- Assembling the tree of a text fails at the leftmost numeral that is too long, if there is one. -/
theorem readTree_failed? (text : String) (tree : Node) (read : readTree text = .ok tree) :
    tree.assemble.failed? =
      (tree.numerals.find? fun leaf => Numeral.maxDigits < leaf.digitCount).map Node.overlong := by
  obtain ⟨phrase, found, rfl⟩ := Phrase.map_ok _ _ _ read
  obtain ⟨derives, short, _⟩ := readPhrase_sound text phrase found
  rw [← findSome?_overlong, Phrase.node, phrase.chain.assemble_node _ _ derives.chain short]
  exact phrase.chain.failed?_assembly _ _ derives.chain

namespace Phrase

theorem derives_digits (digits : List Char) (some : digits ≠ []) (inside : Digits digits) :
    (Phrase.mk [] (.last (.number false digits)) []).Derives (String.ofList digits) := by
  refine ⟨?_, layout_nil, ⟨some, inside⟩, layout_nil⟩
  rw [String.toList_ofList]
  exact List.append_nil _

theorem numerals_digits (digits : List Char) :
    (Phrase.mk [] (.last (.number false digits)) []).node.numerals =
      [Node.spanning .number 0 digits []] := by
  rw [Phrase.node, Chain.node, expressionNode, Node.numerals_around _ _ (by decide),
    Node.numerals_spanning _ _ _ _ (by decide), Chain.parts, Node.numeralsAmong_singleton, termNode,
    Node.numerals_spanning _ _ _ _ (by decide), Node.numeralsAmong_singleton, Term.inner,
    Node.numerals_leaf _ _ _ (.inl rfl)]
  rfl

end Phrase

/-- The tree of a text can be assembled exactly if none of its numbers and numbers of dice is too
long, and otherwise the leftmost one decides how that fails. No text fails in another way than by
being refused or by a numeral that is too long. -/
theorem reading_failures (text : String) :
    (∀ tree, readTree text = .ok tree →
      ((∃ reading, tree.reading = .ok reading) ↔
        ∀ leaf ∈ tree.numerals, leaf.digitCount ≤ Numeral.maxDigits) ∧
      ∀ leaf, (tree.numerals.find? fun leaf => Numeral.maxDigits < leaf.digitCount) = some leaf →
        tree.reading = .error leaf.overlong) ∧
    ∀ failure, read text = .error failure →
      (∃ rejection, failure = .rejected rejection) ∨ (∃ digits, failure = .overlong digits) ∨
        ∃ digits, failure = .violated ⟨.number, digits, .signed⟩ := by
  refine ⟨fun tree accepted => ⟨?_, ?_⟩, ?_⟩
  · have failed := readTree_failed? text tree accepted
    rw [Node.reading, ofAssembly_ok, failed, Option.map_eq_none_iff, List.find?_eq_none]
    simp only [decide_eq_true_eq, Nat.not_lt]
  · intro leaf first
    have failed := readTree_failed? text tree accepted
    rw [Node.reading, ofAssembly_error, failed, first, Option.map_some]
  · intro failure failed
    cases accepted : readTree text with
    | error refused =>
      rw [read, accepted] at failed
      cases failed
      rcases readPhrase_error text _ (Phrase.map_error _ _ _ accepted) with
        rejected | ⟨digits, same, _⟩
      · exact .inl rejected
      · exact .inr (.inl ⟨digits, same⟩)
    | ok tree =>
      rw [read, accepted] at failed
      have stopped := (ofAssembly_error tree.assemble failure).mp failed
      rw [readTree_failed? text tree accepted] at stopped
      obtain ⟨leaf, _, rfl⟩ := Option.map_eq_some_iff.mp stopped
      unfold Node.overlong
      split
      · rename_i number
        exact .inr (.inr ⟨leaf.text, by rw [Node.violation, number]⟩)
      · exact .inr (.inl ⟨_, rfl⟩)

/-- A number of 4301 digits is notation, but its tree cannot be assembled. -/
theorem reading_failures_nines :
    ∃ tree, readTree (String.ofList (List.replicate 4301 '9')) = .ok tree ∧
      tree.reading =
        .error (.violated ⟨.number, String.ofList (List.replicate 4301 '9'), .signed⟩) := by
  have nines := Phrase.digits_replicate 4301 '9' (by decide)
  have some : List.replicate 4301 '9' ≠ [] := by
    rw [List.replicate_succ]
    exact List.cons_ne_nil _ _
  have accepted : readTree (String.ofList (List.replicate 4301 '9')) =
      .ok (Phrase.mk [] (.last (.number false (List.replicate 4301 '9'))) []).node := by
    rw [readTree, readPhrase_complete _ _ (Phrase.derives_digits _ some nines) (Nat.zero_le _)]
    rfl
  have counted := Phrase.digitCount_number 0 false (List.replicate 4301 '9') nines
  rw [List.length_replicate, Phrase.Term.text] at counted
  have first : ((Phrase.mk [] (.last (.number false (List.replicate 4301 '9'))) []).node.numerals.find?
      fun leaf => Numeral.maxDigits < leaf.digitCount) =
        .some (Node.spanning .number 0 (List.replicate 4301 '9') []) := by
    rw [Phrase.numerals_digits, List.find?_cons_of_pos]
    rw [counted]
    decide
  exact ⟨_, accepted, ((reading_failures _).1 _ accepted).2 _ first⟩

end Tabletop
