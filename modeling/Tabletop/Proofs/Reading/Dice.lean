import Tabletop.Proofs.Node.Reordered
import Tabletop.Proofs.Phrase.Modifiers
import Tabletop.Proofs.Reading.Contract

/-! What a text that is a single dice term is read as. Its roll is found from the text, whatever modifiers stand in
it and in whatever order, and its tree gives the same roll when the modifiers are put in any other order that
keeps the selections and the rerolls in turn. -/
namespace Tabletop

/-- The tree of a text that is a dice term with the given nodes inside. -/
def Node.ofDice (text : List Char) (parts : List Node) : Node :=
  Phrase.expressionNode 0 text [Phrase.termNode 0 [] text (.spanning .diceRoll 0 text parts)]

theorem Node.reading_ofDice (text : List Char) (parts : List Node) (roll : Roll) :
    (Node.ofDice text parts).reading = .ok ⟨.dice roll, [roll]⟩ ↔
      (Node.spanning .diceRoll 0 text parts).roll = .ok roll := by
  rw [Node.reading, Node.ofDice, Phrase.assemble_operation _ _ _ _ rfl, Phrase.assemble_termNode,
    Phrase.assemble_diceRoll]
  cases (Node.spanning .diceRoll 0 text parts).roll with
  | error failure =>
    apply iff_of_false
    · intro found
      cases found
    · intro found
      cases found
  | ok found =>
    simp [Assembly.completed, Assembly.andThen, Assembly.value, Reading.ofAssembly, Node.assembleLinks, Except.map]

namespace Phrase

def Dice.front (dice : Dice) : List Node :=
  digitNodes .diceNumber 0 dice.count ++ [.spanning .dieSize (dice.count.length + 1) dice.size.text []]

def Dice.parts (dice : Dice) : List Node :=
  modifierNodes (dice.count.length + 1 + dice.size.text.length) dice.modifiers

theorem Dice.node_zero (dice : Dice) :
    dice.node 0 = .spanning .diceRoll 0 dice.text (dice.front ++ dice.parts) := by
  simp [Dice.node, Dice.front, Dice.parts]

theorem Dice.front_sized (dice : Dice) : ∃ size ∈ dice.front, size.rule = .dieSize :=
  ⟨_, List.mem_append_right _ (List.mem_singleton_self _), rfl⟩

theorem Dice.front_modifies (dice : Dice) : ∀ part ∈ dice.front, part.rule.modifies = false := by
  unfold Dice.front digitNodes
  cases dice.count <;> simp [Node.spanning, Rule.modifies, Rule.selects, Rule.rerolls]

theorem modifierNodes_modifies (start : Nat) (modifiers : List Modifier) :
    ∀ part ∈ modifierNodes start modifiers, part.rule.modifies = true := by
  induction modifiers generalizing start with
  | nil =>
    intro part member
    cases member
  | cons modifier rest ih =>
    refine List.forall_mem_cons.mpr ⟨?_, ih _⟩
    cases modifier with
    | explode twice => rfl
    | select selector count => cases selector <;> rfl
    | reroll count => rfl

/-- The tree of an admissible dice term rolls what its modifiers come to. -/
theorem Dice.readTree_roll (dice : Dice) (admissible : dice.Admissible)
    (short : ∀ run, run <:+: dice.text → Digits run → run.length ≤ Numeral.maxDigits) :
    ∃ roll : Roll, roll.draft = dice.draft ∧
      readTree (String.ofList dice.text) = .ok (Node.ofDice dice.text (dice.front ++ dice.parts)) ∧
      (Node.spanning .diceRoll 0 dice.text (dice.front ++ dice.parts)).roll = .ok roll := by
  have convertible : Convertible dice.conversions := by
    intro run converted
    obtain ⟨digits, within⟩ := dice.conversions_text admissible run converted
    exact short run within digits
  have sized := ((dice.convertible_iff admissible).mp convertible).1
  have counted : Numeral.overlong? dice.count = none :=
    (Numeral.overlong?_eq_none _).mpr (convertible dice.count List.mem_cons_self)
  obtain ⟨roll, draft, rolled⟩ := dice.roll_eq admissible
  rw [counted, ← roll_node 0 dice admissible sized, dice.node_zero] at rolled
  refine ⟨roll, draft, ?_, rolled⟩
  rw [readTree_complete _ _ (derives_dice dice admissible) sized (Nat.zero_le _), Node.ofDice, ← dice.node_zero]
  simp [Phrase.node, Chain.node, Chain.extent, Chain.parts, Term.text, Term.inner]

def Dice.merged (dice : Dice) : Dice := ⟨dice.count, dice.size, Phrase.merged dice.modifiers⟩

theorem Dice.merged_text (dice : Dice) : dice.merged.text = dice.text := by
  rw [Dice.text, Dice.merged, Phrase.merged_text]
  rfl

theorem Dice.merged_admissible (dice : Dice) (count : Digits dice.count) (size : dice.size.Admissible)
    (modifiers : ∀ modifier ∈ dice.modifiers, modifier.Admissible) : dice.merged.Admissible :=
  ⟨count, size, forall_merged Modifier.Admissible (fun _ => trivial) _ modifiers, merged_apart _⟩

theorem Dice.marks_text (dice : Dice) (count : Digits dice.count) (size : dice.size.Admissible) :
    ('!' ∈ dice.text ↔ '!' ∈ dice.modifiers.flatMap Modifier.text) ∧
      (Doubled dice.text ↔ Doubled (dice.modifiers.flatMap Modifier.text)) := by
  have sized : '!' ∉ dice.size.text := by
    cases same : dice.size with
    | percent => decide
    | digits run =>
      rw [same] at size
      exact not_mem_digits run size.1 '!' rfl
  have unmarked : '!' ∉ dice.count ++ 'd' :: dice.size.text := by
    rw [List.mem_append, List.mem_cons, not_or, not_or]
    exact ⟨not_mem_digits dice.count count '!' rfl, by decide, sized⟩
  have text : dice.text = (dice.count ++ 'd' :: dice.size.text) ++ dice.modifiers.flatMap Modifier.text := by
    simp [Dice.text]
  rw [text, List.mem_append, or_iff_right unmarked]
  exact ⟨Iff.rfl, doubled_unmarked _ _ unmarked⟩

theorem Dice.explosion_marks (dice : Dice) (admissible : dice.Admissible) :
    (dice.draft.explosion = .indefinite ↔ Doubled dice.text) ∧
      (dice.draft.explosion = .none ↔ '!' ∉ dice.text) := by
  obtain ⟨marks, doubles⟩ := dice.marks_text admissible.count admissible.size
  rw [doubles, doubled_modifiers _ admissible.apart admissible.modifiers, marks,
    mark_mem_modifiers _ admissible.modifiers, Dice.draft, amended_indefinite, amended_none, not_exists]
  constructor
  · simp [Dice.base]
  · simp [Dice.base]

theorem Dice.draft_size (dice : Dice) : dice.draft.size = dice.size.value := by
  apply List.foldlRecOn (motive := fun draft : Roll.Draft => draft.size = dice.size.value)
  · rfl
  · intro draft sized modifier _
    cases modifier with
    | explode twice => cases twice <;> exact sized
    | select selector digits => exact sized
    | reroll digits => exact sized

theorem Dice.merged_draft (dice : Dice) :
    dice.merged.draft.selection =
        (dice.modifiers.filterMap Modifier.selection?).getLast?.map (fun last => (last.1, (last.2 : Int))) ∧
      dice.merged.draft.reroll =
        (dice.modifiers.filterMap Modifier.threshold?).getLast?.map fun last : Nat => (last : Int) := by
  have selections := filterMap_merged Modifier.selection? (fun _ => rfl) dice.modifiers
  have rerolls := filterMap_merged Modifier.threshold? (fun _ => rfl) dice.modifiers
  rw [Dice.draft, Dice.merged, amended_selection, amended_reroll, selections, rerolls]
  exact ⟨Option.or_none, Option.or_none⟩

end Phrase

theorem Roll.of_draft (roll : Roll) (selection : Option (Roll.Policy × Nat)) (reroll : Option Nat)
    (selected : roll.draft.selection = selection.map fun given => (given.1, (given.2 : Int)))
    (rerolled : roll.draft.reroll = reroll.map fun given : Nat => (given : Int)) :
    roll.selection.map (fun given => (given.policy, given.count.val)) = selection ∧
      roll.reroll.map (fun given => given.val) = reroll := by
  constructor
  · have same := congrArg (Option.map fun given : Roll.Policy × Int => (given.1, given.2.toNat)) selected
    simpa [Roll.draft, Function.comp_def] using same
  · have same := congrArg (Option.map Int.toNat) rerolled
    simpa [Roll.draft, Function.comp_def] using same

theorem Roll.Explosion.once_iff (explosion : Roll.Explosion) (marked doubled : Prop) (marks : doubled → marked)
    (indefinite : explosion = .indefinite ↔ doubled) (none : explosion = .none ↔ ¬ marked) :
    explosion = .once ↔ marked ∧ ¬ doubled := by
  cases explosion <;> simp_all

/-- A text that is a dice term is read as a roll of the number and the size it names, a hundred for the percent
sign. Two adjacent marks anywhere make it explode indefinitely, other marks once, and of the selections and of
the rerolls it has the last one. Any other order of the modifiers in its tree gives the same roll if the
selections and the rerolls stay in turn. -/
theorem read_dice (dice : Phrase.Dice) (count : Phrase.Digits dice.count) (size : dice.size.Admissible)
    (modifiers : ∀ modifier ∈ dice.modifiers, modifier.Admissible)
    (short : ∀ run, run <:+: dice.text → Phrase.Digits run → run.length ≤ Numeral.maxDigits) :
    ∃ roll : Roll,
      read (String.ofList dice.text) = .ok ⟨.dice roll, [roll]⟩ ∧
      roll.count = Phrase.countValue dice.count ∧
      roll.size.val = dice.size.value ∧
      (roll.explosion = .indefinite ↔ ['!', '!'] <:+: dice.text) ∧
      (roll.explosion = .once ↔ '!' ∈ dice.text ∧ ¬ ['!', '!'] <:+: dice.text) ∧
      (roll.explosion = .none ↔ '!' ∉ dice.text) ∧
      roll.selection.map (fun given => (given.policy, given.count.val)) =
        (dice.modifiers.filterMap Phrase.Modifier.selection?).getLast? ∧
      roll.reroll.map (fun given => given.val) = (dice.modifiers.filterMap Phrase.Modifier.threshold?).getLast? ∧
      ∃ front parts : List Node,
        readTree (String.ofList dice.text) = .ok (Node.ofDice dice.text (front ++ parts)) ∧
        (∀ part ∈ front, part.rule.modifies = false) ∧ (∀ part ∈ parts, part.rule.modifies = true) ∧
        ∀ reordered : List Node, parts.Perm reordered →
          parts.filter (·.rule.selects) = reordered.filter (·.rule.selects) →
          parts.filter (·.rule.rerolls) = reordered.filter (·.rule.rerolls) →
          (Node.ofDice dice.text (front ++ reordered)).reading = .ok ⟨.dice roll, [roll]⟩ := by
  have admissible := dice.merged_admissible count size modifiers
  rw [← dice.merged_text] at short
  obtain ⟨roll, draft, tree, rolled⟩ := dice.merged.readTree_roll admissible short
  have explosions := dice.merged.explosion_marks admissible
  have drafted := dice.merged_draft
  have counts := dice.merged.draft_count
  have sizes := dice.merged.draft_size
  rw [← draft] at explosions drafted counts sizes
  rw [dice.merged_text] at tree rolled explosions
  have marked : ['!', '!'] <:+: dice.text → '!' ∈ dice.text := fun doubled => doubled.mem List.mem_cons_self
  have once := roll.explosion.once_iff _ _ marked explosions.1 explosions.2
  obtain ⟨selected, rerolled⟩ := roll.of_draft _ _ drafted.1 drafted.2
  refine ⟨roll, ?_, Int.ofNat.inj counts, Int.ofNat.inj sizes, explosions.1, once, explosions.2, selected, rerolled,
    dice.merged.front, dice.merged.parts, tree, dice.merged.front_modifies, Phrase.modifierNodes_modifies _ _, ?_⟩
  · rw [read, tree]
    exact (Node.reading_ofDice _ _ _).mpr rolled
  · intro reordered perm selections rerolls
    refine (Node.reading_ofDice _ _ _).mpr ?_
    exact Node.roll_reordered _ _ dice.merged.front dice.merged.parts reordered roll dice.merged.front_sized
      rfl rfl perm selections rerolls rolled

theorem marks_first (parts : List Node) :
    let marks := parts.filter fun part => part.rule = .exploding
    let others := parts.filter fun part => part.rule ≠ .exploding
    parts.Perm (marks ++ others) ∧
      parts.filter (·.rule.selects) = (marks ++ others).filter (·.rule.selects) ∧
      parts.filter (·.rule.rerolls) = (marks ++ others).filter (·.rule.rerolls) := by
  intro marks others
  have perm : (marks ++ others).Perm parts := by
    simpa [marks, others] using List.filter_append_perm (fun part : Node => decide (part.rule = .exploding)) parts
  have apart (kind : Rule → Bool) (other : kind .exploding = false) :
      parts.filter (fun part => kind part.rule) = (marks ++ others).filter fun part => kind part.rule := by
    have none : marks.filter (fun part => kind part.rule) = [] := by
      rw [List.filter_eq_nil_iff]
      intro part member
      rw [of_decide_eq_true (List.mem_filter.mp member).2, other]
      exact Bool.false_ne_true
    rw [List.filter_append, none, List.nil_append, List.filter_filter]
    apply List.filter_congr
    intro part _
    by_cases mark : part.rule = .exploding <;> simp [mark, other]
  exact ⟨perm.symm, apart Rule.selects rfl, apart Rule.rerolls rfl⟩

/-- Two marks are a double one however they were put there, and the mark behind the drop does not undo it. The
tree may as well have its marks before all other modifiers. -/
theorem read_dice_marks :
    let text := "4d%!r2!!d!rkl03"
    ∃ roll : Roll, roll.count = 4 ∧ roll.size.val = 100 ∧ roll.explosion = .indefinite ∧
      roll.selection.map (fun given => (given.policy, given.count.val)) = some (.keepLowest, 3) ∧
      roll.reroll.map (fun given => given.val) = some 1 ∧
      read text = .ok ⟨.dice roll, [roll]⟩ ∧
      ∃ front parts : List Node,
        readTree text = .ok (Node.ofDice text.toList (front ++ parts)) ∧
        (Node.ofDice text.toList (front ++ (parts.filter (fun part => part.rule = .exploding) ++
          parts.filter fun part => part.rule ≠ .exploding))).reading = .ok ⟨.dice roll, [roll]⟩ := by
  let dice : Phrase.Dice := ⟨['4'], .percent, [.explode false, .reroll ['2'], .explode false, .explode false,
    .select .d [], .explode false, .reroll [], .select .kl ['0', '3']]⟩
  have modifiers : ∀ modifier ∈ dice.modifiers, modifier.Admissible := by
    have two : Phrase.PositiveRun ['2'] := ⟨List.all_eq_true.mp rfl, by decide⟩
    have three : Phrase.PositiveRun ['0', '3'] := ⟨List.all_eq_true.mp rfl, by decide⟩
    simp [dice, Phrase.Modifier.Admissible, Phrase.Count, two, three]
  have short : ∀ run, run <:+: dice.text → Phrase.Digits run → run.length ≤ Numeral.maxDigits := by
    intro run inside _
    exact inside.length_le.trans (by decide)
  obtain ⟨roll, found, count, size, double, _, _, selection, reroll, front, parts, tree, _, _, reordered⟩ :=
    read_dice dice (Phrase.digits_replicate 1 '4' (by decide)) trivial modifiers short
  obtain ⟨perm, selections, rerolls⟩ := marks_first parts
  exact ⟨roll, count, size, double.mpr (by decide), selection, reroll, found, front, parts, tree,
    reordered _ perm selections rerolls⟩

end Tabletop
