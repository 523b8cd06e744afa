import Tabletop.Proofs.Phrase.Outcome
import Tabletop.Proofs.Reading.Rendered

/-! Normal forms. What was read from a text is read again from its normal form, so the normal form
stands for the expression: two texts with the same normal form were read as the same expression. -/
namespace Tabletop

theorem read_sound (text : String) (reading : Reading) (found : read text = .ok reading) :
    ∃ phrase : Phrase, phrase.Derives text ∧ phrase.chain.overlong? = none ∧
      phrase.chain.depth ≤ Nesting.limit ∧ phrase.chain.assembly = ⟨reading.rolls, .ok reading.expression⟩ := by
  obtain ⟨tree, accepted, assembled⟩ := Phrase.bind_ok _ _ _ found
  obtain ⟨phrase, parsed, rfl⟩ := Phrase.map_ok _ _ _ accepted
  obtain ⟨derives, short, shallow⟩ := readPhrase_sound text phrase parsed
  refine ⟨phrase, derives, short, shallow, ?_⟩
  rw [Node.reading, Phrase.node, phrase.chain.assemble_node _ _ derives.chain short] at assembled
  obtain ⟨expression, outcome, rfl⟩ := Phrase.map_ok _ _ _ assembled
  rw [← outcome]

/-- The rolls of a reading are those of its expression, which reads back as itself. -/
theorem read_settled (text : String) (reading : Reading) (found : read text = .ok reading) :
    reading.expression.Settled Nesting.limit ∧ reading.rolls = reading.expression.rolls := by
  obtain ⟨phrase, derives, short, shallow, assembled⟩ := read_sound text reading found
  have outcome : (phrase.chain.assemblyOnto id).outcome = .ok reading.expression :=
    congrArg Assembly.outcome assembled
  have rolls : (phrase.chain.assemblyOnto id).rolls = reading.rolls :=
    congrArg Assembly.rolls assembled
  obtain ⟨settled, collected⟩ := phrase.chain.assemblyOnto_settled id _ Nesting.limit [] derives.chain
    short shallow (Phrase.joins_id _) outcome
  rw [rolls] at collected
  exact ⟨settled, collected.symm⟩

theorem Expr.Settled.read_describe (expr : Expr) (settled : expr.Settled Nesting.limit) :
    read expr.describe = .ok ⟨expr, expr.rolls⟩ := by
  rw [Expr.read_describe expr settled.writable settled.shallow,
    List.findSome?_eq_none_iff.mpr settled.names, expr.reassociated_of_leftLeaning settled.leans]

theorem read_again (text : String) (reading : Reading) (found : read text = .ok reading) :
    read reading.normalized = .ok reading := by
  obtain ⟨settled, rolls⟩ := read_settled text reading found
  rw [Reading.normalized, settled.read_describe, ← rolls]

/-- The normal form of what was read is read as the same expression with the same rolls, and has
itself as its normal form. Two readings have the same normal form exactly if they have the same
expression. -/
theorem read_normalized (text : String) (reading : Reading) (found : read text = .ok reading) :
    read reading.normalized = .ok reading ∧
    (∀ again, read reading.normalized = .ok again → again.normalized = reading.normalized) ∧
    ∀ (text' : String) (other : Reading), read text' = .ok other →
      (reading.normalized = other.normalized ↔ reading.expression = other.expression) := by
  have again := read_again text reading found
  refine ⟨again, ?_, ?_⟩
  · intro result read
    rw [again] at read
    rw [Except.ok.inj read]
  · intro text' other found'
    constructor
    · intro same
      have again' := read_again text' other found'
      rw [← same, again] at again'
      rw [Except.ok.inj again']
    · intro same
      rw [Reading.normalized, same]
      rfl

/-- Leading zeros, a count of one and a mark after a double one do not show in the normal form. -/
theorem read_normalized_marks :
    read "01 -1d06!!!" = .ok ⟨.binary (.number 1) "-" (.dice ⟨1, ⟨6, by decide⟩, .indefinite, none, none⟩),
      [⟨1, ⟨6, by decide⟩, .indefinite, none, none⟩]⟩ ∧
    read "1 - d6!!" = .ok ⟨.binary (.number 1) "-" (.dice ⟨1, ⟨6, by decide⟩, .indefinite, none, none⟩),
      [⟨1, ⟨6, by decide⟩, .indefinite, none, none⟩]⟩ := by
  have found : read "01 -1d06!!!" =
      .ok ⟨.binary (.number 1) "-" (.dice ⟨1, ⟨6, by decide⟩, .indefinite, none, none⟩),
        [⟨1, ⟨6, by decide⟩, .indefinite, none, none⟩]⟩ := by decide +kernel
  exact ⟨found, (read_normalized _ _ found).1⟩

end Tabletop
