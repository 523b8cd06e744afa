import Tabletop.Proofs.Expr.Written

/-! What can be assembled. The expression of an admissible chain whose runs of digits are short enough
can be written and read again: it leans to the left, and its numbers are no longer in normal form than
they were in the text. The rolls of the assembly are those of the expression. -/
namespace Tabletop

theorem Assembly.andThen_ok {α β : Type} (first : Assembly α) (second : α → Assembly β) (b : β)
    (ok : (first.andThen second).outcome = .ok b) :
    ∃ a, first.outcome = .ok a ∧ (second a).outcome = .ok b ∧
      (first.andThen second).rolls = first.rolls ++ (second a).rolls := by
  obtain ⟨rolls, outcome⟩ := first
  cases outcome with
  | error failure => cases ok
  | ok a => exact ⟨a, rfl, ok, rfl⟩

/-- An expression that reads back as itself where there is room for its calls. -/
structure Expr.Settled (room : Nat) (expr : Expr) : Prop where
  writable : expr.Writable
  shallow : expr.depth ≤ room
  names : ∀ name ∈ expr.names, Phrase.nameOverlong? name.toList = none
  leans : expr.LeftLeaning

theorem Expr.Settled.mono (small large : Nat) (expr : Expr) (le : small ≤ large)
    (settled : expr.Settled small) : expr.Settled large :=
  ⟨settled.writable, settled.shallow.trans le, settled.names, settled.leans⟩

theorem Expr.Settled.binary (room : Nat) (left right : Expr) (operator : String)
    (known : operator ∈ ["+", "-", "*", "/"]) (first : left.Settled room)
    (second : right.Settled room) (operand : ¬ right.IsOperation) :
    (Expr.binary left operator right).Settled room := by
  refine ⟨⟨first.writable, known, second.writable⟩, Nat.max_le.mpr ⟨first.shallow, second.shallow⟩, ?_,
    ⟨first.leans, second.leans, operand⟩⟩
  intro name member
  rcases List.mem_append.mp member with inside | inside
  · exact first.names name inside
  · exact second.names name inside

theorem Roll.writable_of_draft (roll : Roll) (count : Numeral.Short roll.draft.count.toNat)
    (every : roll.draft.Every fun n => Numeral.Short n.toNat) : roll.Writable := by
  refine ⟨count, every.size, ?_, ?_⟩
  · intro selection member
    exact every.selection (selection.policy, selection.count.val) (Option.mem_map_of_mem _ member)
  · intro threshold member
    exact every.reroll threshold.val (Option.mem_map_of_mem _ member)

namespace Phrase

theorem short_value (run : List Char) (some : run ≠ []) (digits : Digits run)
    (short : Numeral.overlong? run = none) : Numeral.Short (Numeral.value run) :=
  (Numeral.length_ofNat_value run some digits).trans ((Numeral.overlong?_eq_none run).mp short)

theorem short_countValue (count : List Char) (digits : Digits count)
    (short : Numeral.overlong? count = none) : Numeral.Short (countValue count) := by
  cases count with
  | nil =>
    change (Numeral.ofNat 1).length ≤ Numeral.maxDigits
    decide
  | cons c tail => exact short_value _ (List.cons_ne_nil c tail) digits short

theorem Size.short_value (size : Size) (admissible : size.Admissible)
    (short : size.overlong? = none) : Numeral.Short size.value := by
  cases size with
  | percent =>
    change (Numeral.ofNat 100).length ≤ Numeral.maxDigits
    decide
  | digits run => exact Phrase.short_value run admissible.ne_nil admissible.1 short

theorem Modifier.overlong?_count (modifier : Modifier) (short : modifier.overlong? = none)
    (count : List Char) (counts : count ∈ modifier.count?) : Numeral.overlong? count = none := by
  cases modifier with
  | explode twice => cases counts
  | select selector digits =>
    cases counts
    exact short
  | reroll digits =>
    cases counts
    exact short

theorem Dice.roll_writable (dice : Dice) (roll : Roll) (admissible : dice.Admissible)
    (short : dice.overlong? = none) (rolled : dice.roll = .ok roll) : roll.Writable := by
  obtain ⟨size, modifiers⟩ := Option.or_eq_none_iff.mp short
  rw [modifiersOverlong?_eq_none] at modifiers
  obtain ⟨found, draft, outcome⟩ := dice.roll_eq admissible
  rw [outcome] at rolled
  split at rolled
  · rename_i count
    cases rolled
    apply roll.writable_of_draft
    · rw [draft, dice.draft_count, Int.toNat_natCast]
      exact short_countValue dice.count admissible.count count
    · rw [draft]
      apply dice.draft_every
      · exact dice.size.short_value admissible.size size
      · intro modifier member digits counts
        have counted := (admissible.modifiers modifier member).count modifier digits counts
        exact short_countValue digits (Count.digits _ counted)
          (modifier.overlong?_count (modifiers modifier member) digits counts)
  · cases rolled

theorem Operator.char_known (operator : Operator) :
    String.ofList [operator.char] ∈ ["+", "-", "*", "/"] := by
  cases operator <;> decide

/-- What stands to the left of an operand stays settled with it and brings its own rolls before. -/
def Joins (room : Nat) (lead : List Roll) (join : Expr → Expr) : Prop :=
  ∀ operand : Expr, operand.Settled room → ¬ operand.IsOperation →
    (join operand).Settled room ∧ (join operand).rolls = lead ++ operand.rolls

theorem joins_id (room : Nat) : Joins room [] id := by
  intro operand settled _
  exact ⟨settled, rfl⟩

theorem joins_binary (room : Nat) (left : Expr) (operator : Operator) (settled : left.Settled room) :
    Joins room left.rolls (.binary left (String.ofList [operator.char])) := by
  intro operand next alone
  constructor
  · apply settled.binary
    · exact operator.char_known
    · exact next
    · exact alone
  · rfl

theorem natAbs_signedValue (negative : Bool) (run : List Char) :
    (Numeral.signedValue negative run).natAbs = Numeral.value run := by
  cases negative with
  | true => exact (Int.natAbs_neg _).trans (Int.natAbs_natCast _)
  | false => exact Int.natAbs_natCast _

mutual
theorem Term.assembly_settled (term : Term) (value : Expr) (admissible : term.Admissible)
    (short : term.overlong? = none) (ok : term.assembly.outcome = .ok value) :
    value.Settled term.depth ∧ ¬ value.IsOperation ∧ term.assembly.rolls = value.rolls := by
  match term with
  | .dice dice =>
    rw [Term.assembly] at ok ⊢
    cases rolled : dice.roll with
    | error failure =>
      rw [rolled] at ok
      cases ok
    | ok roll =>
      rw [rolled] at ok
      cases ok
      have writable := dice.roll_writable roll admissible short rolled
      exact ⟨⟨writable, Nat.le_refl 0, by simp [Expr.names], trivial⟩, id, rfl⟩
  | .number negative digits =>
    rw [Term.assembly] at ok ⊢
    cases converted : Numeral.overlong? digits with
    | some length =>
      rw [converted] at ok
      cases ok
    | none =>
      rw [converted] at ok
      cases ok
      have writable : Numeral.Short (Numeral.signedValue negative digits).natAbs := by
        rw [natAbs_signedValue]
        exact short_value digits admissible.1 admissible.2 converted
      exact ⟨⟨writable, Nat.le_refl 0, by simp [Expr.names], trivial⟩, id, rfl⟩
  | .call name beforeOpening afterOpening argument beforeClosing =>
    rw [Term.assembly] at ok ⊢
    obtain ⟨inner, found, same, rolls⟩ := Assembly.andThen_ok _ _ _ ok
    cases same
    obtain ⟨named, shorts⟩ := Option.or_eq_none_iff.mp short
    obtain ⟨settled, collected⟩ := argument.assemblyOnto_settled id inner argument.depth []
      admissible.2.2.2.1 shorts (Nat.le_refl _) (joins_id _) found
    have isName : IsName (String.ofList name).toList := by
      rw [String.toList_ofList]
      exact admissible.1
    refine ⟨⟨⟨isName, settled.writable⟩, Nat.succ_le_succ settled.shallow, ?_, settled.leans⟩, id, ?_⟩
    · intro called member
      rcases List.mem_cons.mp member with rfl | inside
      · rw [String.toList_ofList]
        exact named
      · exact settled.names called inside
    · rw [rolls, Expr.rolls, collected]
      exact List.append_nil _
theorem Chain.assemblyOnto_settled (chain : Chain) (join : Expr → Expr) (value : Expr) (room : Nat)
    (lead : List Roll) (admissible : chain.Admissible) (short : chain.overlong? = none)
    (shallow : chain.depth ≤ room) (joins : Joins room lead join)
    (ok : (chain.assemblyOnto join).outcome = .ok value) :
    value.Settled room ∧ value.rolls = lead ++ (chain.assemblyOnto join).rolls := by
  match chain with
  | .last term =>
    rw [Chain.assemblyOnto] at ok ⊢
    obtain ⟨operand, found, same, rolls⟩ := Assembly.andThen_ok _ _ _ ok
    cases same
    obtain ⟨settled, alone, collected⟩ := term.assembly_settled operand admissible short found
    obtain ⟨joined, written⟩ := joins operand (settled.mono _ _ _ shallow) alone
    refine ⟨joined, ?_⟩
    rw [rolls, written, collected]
    exact congrArg (lead ++ ·) (List.append_nil _).symm
  | .link term joint rest =>
    rw [Chain.assemblyOnto] at ok ⊢
    obtain ⟨operand, found, following, rolls⟩ := Assembly.andThen_ok _ _ _ ok
    obtain ⟨first, others⟩ := Option.or_eq_none_iff.mp short
    obtain ⟨deep, deeper⟩ := Nat.max_le.mp shallow
    obtain ⟨settled, alone, collected⟩ := term.assembly_settled operand admissible.1 first found
    obtain ⟨joined, written⟩ := joins operand (settled.mono _ _ _ deep) alone
    -- What stands to the left of the rest is everything up to the operator.
    have onward := joins_binary room (join operand) joint.operator joined
    rw [written] at onward
    obtain ⟨whole, spelled⟩ := rest.assemblyOnto_settled _ value room (lead ++ operand.rolls)
      admissible.2.2 others deeper onward following
    refine ⟨whole, ?_⟩
    rw [rolls, spelled, collected, List.append_assoc]
end

end Phrase
end Tabletop
