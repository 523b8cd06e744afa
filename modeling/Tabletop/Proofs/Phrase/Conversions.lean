import Tabletop.Proofs.Node.Numerals
import Tabletop.Proofs.Text.Runs

/-! The runs of digits that are converted. Sizes, the counts of modifiers and the digits behind a leading
d of a name are converted while a text is scanned, the number of dice and the digits of a number when
its tree is assembled. A phrase is read exactly if none of these runs is too long. -/
namespace Tabletop.Phrase

def Size.conversions : Size → List (List Char)
  | .percent => []
  | .digits run => [run]

def Modifier.conversions : Modifier → List (List Char)
  | .explode _ => []
  | .select _ count => [count]
  | .reroll count => [count]

def Dice.conversions (dice : Dice) : List (List Char) :=
  dice.count :: (dice.size.conversions ++ dice.modifiers.flatMap Modifier.conversions)

def nameConversions : List Char → List (List Char)
  | 'd' :: rest => [rest.takeWhile Char.isDigit]
  | _ => []

mutual
def Term.conversions : Term → List (List Char)
  | .dice dice => dice.conversions
  | .number _ digits => [digits]
  | .call name _ _ argument _ => nameConversions name ++ argument.conversions
/-- The runs of digits that are converted when a chain is read. -/
def Chain.conversions : Chain → List (List Char)
  | .last term => term.conversions
  | .link term _ rest => term.conversions ++ rest.conversions
end

def Convertible (runs : List (List Char)) : Prop := ∀ run ∈ runs, run.length ≤ Numeral.maxDigits

theorem convertible_append (first second : List (List Char)) :
    Convertible (first ++ second) ↔ Convertible first ∧ Convertible second := List.forall_mem_append

theorem convertible_singleton (run : List Char) : Convertible [run] ↔ Numeral.overlong? run = none := by
  rw [Numeral.overlong?_eq_none]
  exact List.forall_mem_singleton

theorem convertible_nil : Convertible [] := by
  intro run member
  cases member

theorem Size.overlong?_eq_none (size : Size) :
    size.overlong? = none ↔ Convertible size.conversions := by
  cases size with
  | percent => exact iff_of_true rfl convertible_nil
  | digits run => exact (convertible_singleton run).symm

theorem Modifier.overlong?_eq_none (modifier : Modifier) :
    modifier.overlong? = none ↔ Convertible modifier.conversions := by
  cases modifier with
  | explode twice => exact iff_of_true rfl convertible_nil
  | select selector count => exact (convertible_singleton count).symm
  | reroll count => exact (convertible_singleton count).symm

theorem convertible_modifiers (modifiers : List Modifier) :
    modifiersOverlong? modifiers = none ↔ Convertible (modifiers.flatMap Modifier.conversions) := by
  induction modifiers with
  | nil => exact iff_of_true rfl convertible_nil
  | cons modifier rest ih =>
    rw [modifiersOverlong?, Option.or_eq_none_iff, modifier.overlong?_eq_none, ih, List.flatMap_cons,
      convertible_append]

theorem nameOverlong?_eq_none (name : List Char) :
    nameOverlong? name = none ↔ Convertible (nameConversions name) := by
  unfold nameOverlong?
  split
  · exact (convertible_singleton _).symm
  · rename_i other
    have nothing : nameConversions name = [] := by
      unfold nameConversions
      split
      · rename_i rest
        exact absurd rfl (other rest)
      · rfl
    rw [nothing]
    exact iff_of_true rfl convertible_nil

theorem Dice.convertible_iff (dice : Dice) (admissible : dice.Admissible) :
    Convertible dice.conversions ↔
      dice.overlong? = none ∧ (Term.dice dice).assembly.failed? = none := by
  obtain ⟨roll, _, rolled⟩ := dice.roll_eq admissible
  have assembled : (Term.dice dice).assembly.failed? = none ↔ Numeral.overlong? dice.count = none := by
    rw [Term.assembly, rolled]
    cases Numeral.overlong? dice.count with
    | none => exact iff_of_true rfl rfl
    | some length => exact iff_of_false (Option.some_ne_none _) (Option.some_ne_none _)
  rw [assembled, Dice.overlong?, Option.or_eq_none_iff, dice.size.overlong?_eq_none,
    convertible_modifiers, ← convertible_append, ← convertible_singleton, and_comm,
    ← convertible_append]
  rfl

mutual
theorem Term.convertible_iff (term : Term) (admissible : term.Admissible) :
    Convertible term.conversions ↔ term.overlong? = none ∧ term.assembly.failed? = none := by
  match term with
  | .dice dice => exact dice.convertible_iff admissible
  | .number negative digits =>
    rw [Term.conversions, convertible_singleton, Term.assembly]
    cases Numeral.overlong? digits with
    | none => exact iff_of_true rfl ⟨rfl, rfl⟩
    | some length => exact iff_of_false (Option.some_ne_none _) fun both => Option.some_ne_none _ both.2
  | .call name beforeOpening afterOpening argument beforeClosing =>
    rw [Term.conversions, convertible_append, ← nameOverlong?_eq_none,
      argument.convertible_iff id admissible.2.2.2.1, Term.overlong?, Option.or_eq_none_iff,
      Term.assembly, Assembly.failed?_andThen _ _ none (fun _ => rfl), Option.or_none, and_assoc]
theorem Chain.convertible_iff (chain : Chain) (join : Expr → Expr) (admissible : chain.Admissible) :
    Convertible chain.conversions ↔
      chain.overlong? = none ∧ (chain.assemblyOnto join).failed? = none := by
  match chain with
  | .last term =>
    rw [Chain.conversions, term.convertible_iff admissible, Chain.overlong?, Chain.assemblyOnto,
      Assembly.failed?_andThen _ _ none (fun _ => rfl), Option.or_none]
  | .link term joint rest =>
    -- What fails in the rest of a chain does not depend on what stands to its left.
    have following : ∀ taken, (rest.assemblyOnto taken).failed? = (rest.assemblyOnto id).failed? := by
      intro taken
      rw [rest.failed?_assemblyOnto taken 0 [] admissible.2.2,
        rest.failed?_assemblyOnto id 0 [] admissible.2.2]
    rw [Chain.conversions, convertible_append, term.convertible_iff admissible.1,
      rest.convertible_iff id admissible.2.2, Chain.overlong?, Option.or_eq_none_iff,
      Chain.assemblyOnto, Assembly.failed?_andThen _ _ _ (fun value => following _),
      Option.or_eq_none_iff, and_and_and_comm]
end

theorem Size.conversions_text (size : Size) (admissible : size.Admissible) (run : List Char)
    (converted : run ∈ size.conversions) : Digits run ∧ run = size.text := by
  cases size with
  | percent => cases converted
  | digits digits =>
    rw [List.mem_singleton.mp converted]
    exact ⟨admissible.1, rfl⟩

theorem Modifier.conversions_text (modifier : Modifier) (admissible : modifier.Admissible)
    (run : List Char) (converted : run ∈ modifier.conversions) : Digits run ∧ run <:+ modifier.text := by
  cases modifier with
  | explode twice => cases converted
  | select selector count =>
    rw [List.mem_singleton.mp converted]
    exact ⟨Count.digits _ admissible, List.suffix_append _ _⟩
  | reroll count =>
    rw [List.mem_singleton.mp converted]
    exact ⟨Count.digits _ admissible, List.suffix_cons _ _⟩

theorem Dice.conversions_text (dice : Dice) (admissible : dice.Admissible) (run : List Char)
    (converted : run ∈ dice.conversions) : Digits run ∧ run <:+: dice.text := by
  have behind : dice.size.text ++ dice.modifiers.flatMap Modifier.text <:+: dice.text :=
    ((List.suffix_cons _ _).trans (List.suffix_append _ _)).isInfix
  rcases List.mem_cons.mp converted with rfl | inside
  · exact ⟨admissible.count, (List.prefix_append _ _).isInfix⟩
  · rcases List.mem_append.mp inside with sized | modified
    · obtain ⟨digits, rfl⟩ := dice.size.conversions_text admissible.size run sized
      exact ⟨digits, (List.prefix_append _ _).isInfix.trans behind⟩
    · obtain ⟨modifier, member, counted⟩ := List.mem_flatMap.mp modified
      obtain ⟨digits, last⟩ := modifier.conversions_text (admissible.modifiers modifier member) run counted
      refine ⟨digits, List.IsInfix.trans (last.isInfix.trans ?_) behind⟩
      obtain ⟨before, after, split⟩ := List.append_of_mem member
      rw [split, List.flatMap_append, List.flatMap_cons]
      exact (List.infix_append' _ _ _).trans (List.suffix_append _ _).isInfix

theorem nameConversions_text (name run : List Char) (converted : run ∈ nameConversions name) :
    Digits run ∧ run <:+: name := by
  unfold nameConversions at converted
  split at converted
  · rw [List.mem_singleton.mp converted]
    exact ⟨digits_takeWhile _, (List.takeWhile_prefix _).isInfix.trans (List.suffix_cons _ _).isInfix⟩
  · cases converted

mutual
theorem Term.conversions_text (term : Term) (admissible : term.Admissible) (run : List Char)
    (converted : run ∈ term.conversions) : Digits run ∧ run <:+: term.text := by
  match term with
  | .dice dice => exact dice.conversions_text admissible run converted
  | .number negative digits =>
    rw [List.mem_singleton.mp converted]
    refine ⟨admissible.2, ?_⟩
    cases negative with
    | true => exact (List.suffix_cons _ _).isInfix
    | false => exact List.infix_refl _
  | .call name beforeOpening afterOpening argument beforeClosing =>
    rcases List.mem_append.mp converted with named | inside
    · obtain ⟨digits, within⟩ := nameConversions_text name run named
      exact ⟨digits, within.trans (List.prefix_append _ _).isInfix⟩
    · obtain ⟨digits, within⟩ := argument.conversions_text admissible.2.2.2.1 run inside
      refine ⟨digits, within.trans ?_⟩
      apply (List.infix_append' afterOpening _ (beforeClosing ++ [')'])).trans
      exact ((List.suffix_cons _ _).trans (List.suffix_append _ _)).isInfix.trans
        (List.suffix_append _ _).isInfix
theorem Chain.conversions_text (chain : Chain) (admissible : chain.Admissible) (run : List Char)
    (converted : run ∈ chain.conversions) : Digits run ∧ run <:+: chain.text := by
  match chain with
  | .last term => exact term.conversions_text admissible run converted
  | .link term joint rest =>
    rcases List.mem_append.mp converted with first | later
    · obtain ⟨digits, within⟩ := term.conversions_text admissible.1 run first
      exact ⟨digits, within.trans (List.prefix_append _ _).isInfix⟩
    · obtain ⟨digits, within⟩ := rest.conversions_text admissible.2.2 run later
      exact ⟨digits, within.trans
        ((List.suffix_append _ _).trans (List.suffix_append _ _)).isInfix⟩
end

theorem Modifier.text_marked (modifier : Modifier) :
    ∃ mark count, modifier.text = mark ++ count ∧ mark ≠ [] ∧ (∀ c ∈ mark, c.isDigit = false) ∧
      (count = [] ∨ count ∈ modifier.conversions) := by
  cases modifier with
  | explode twice =>
    refine ⟨_, [], (List.append_nil _).symm, Modifier.text_ne_nil _, Text.eq_false_of_any _ _ ?_, .inl rfl⟩
    cases twice <;> rfl
  | select selector count =>
    refine ⟨selector.text, count, rfl, ?_, Text.eq_false_of_any _ _ ?_, .inr (List.mem_singleton.mpr rfl)⟩
    · cases selector <;> exact List.cons_ne_nil _ _
    · cases selector <;> rfl
  | reroll count =>
    exact ⟨['r'], count, rfl, List.cons_ne_nil _ _, Text.eq_false_of_any _ _ rfl,
      .inr (List.mem_singleton.mpr rfl)⟩

theorem not_longRun_modifiers (digits : Nat) (before : List Char) (modifiers : List Modifier)
    (short : before.length ≤ Numeral.maxDigits)
    (convertible : Convertible (modifiers.flatMap Modifier.conversions)) :
    ¬ LongRun digits (before ++ modifiers.flatMap Modifier.text) := by
  induction modifiers generalizing before with
  | nil =>
    rw [List.flatMap_nil, List.append_nil]
    exact not_longRun_short digits before short
  | cons modifier rest ih =>
    rw [List.flatMap_cons, convertible_append] at convertible
    obtain ⟨mark, count, text, some, others, counted⟩ := modifier.text_marked
    have shortCount : count.length ≤ Numeral.maxDigits := by
      rcases counted with rfl | converted
      · exact Nat.zero_le _
      · exact convertible.1 count converted
    rw [List.flatMap_cons, text, List.append_assoc]
    exact not_longRun_marked digits before mark _ some others (not_longRun_short digits before short)
      (ih count shortCount convertible.2)

theorem Dice.not_longRun (dice : Dice) (convertible : Convertible dice.conversions) (digits : Nat) :
    ¬ LongRun digits dice.text := by
  obtain ⟨count, others⟩ := List.forall_mem_cons.mp convertible
  obtain ⟨sized, modified⟩ := (convertible_append _ _).mp others
  have size : dice.size.text.length ≤ Numeral.maxDigits := by
    cases same : dice.size with
    | percent => exact (by decide : 1 ≤ Numeral.maxDigits)
    | digits run =>
      rw [same] at sized
      exact sized run (List.mem_singleton.mpr rfl)
  exact not_longRun_marked digits dice.count ['d'] _ (List.cons_ne_nil _ _) (Text.eq_false_of_any _ _ rfl)
    (not_longRun_short digits _ count) (not_longRun_modifiers digits _ _ size modified)

end Tabletop.Phrase
