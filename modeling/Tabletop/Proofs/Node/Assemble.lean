import Tabletop.Node.Assemble
import Tabletop.Node.OfPhrase
import Tabletop.Proofs.Phrase.Meaning

/-! Assembling the tree of a phrase. The tree of an admissible phrase whose sizes and counts are short
enough assembles to what the phrase means, so of all the checks that are made of a tree only those of
the digits of numbers and of the number of dice can fail. -/
namespace Tabletop.Phrase
open Node (spanning)

theorem unsigned_spanning (rule : Rule) (start : Nat) (run : List Char) (children : List Node)
    (some : run ≠ []) (digits : Digits run) :
    (spanning rule start run children).unsigned = match Numeral.overlong? run with
      | none => .ok (Numeral.value run)
      | .some length => .error (.overlong length) := by
  have text : (spanning rule start run children).text.toList = run := String.toList_ofList
  rw [Node.unsigned, text, if_pos ⟨some, List.all_eq_true.mpr digits⟩, Numeral.read_eq]
  cases Numeral.overlong? run <;> rfl

theorem signed_spanning (start : Nat) (negative : Bool) (run : List Char) (some : run ≠ [])
    (digits : Digits run) :
    (spanning .number start (Term.number negative run).text []).signed =
      match Numeral.overlong? run with
      | none => .ok (Numeral.signedValue negative run)
      | .some _ => .error (.violated ⟨.number, numberText negative run, .signed⟩) := by
  have text : (spanning .number start (Term.number negative run).text []).text.toList =
      (Term.number negative run).text := String.toList_ofList
  rw [Node.signed, text, Numeral.readSigned_digits negative run some digits]
  cases Numeral.overlong? run <;> rfl

theorem count_node (node first : Node) (start : Nat) (count : List Char)
    (children : node.children = first :: digitNodes .count start count) (other : first.rule ≠ .count)
    (admissible : Count count) (short : Numeral.overlong? count = none) :
    node.count = .ok (countValue count) := by
  have found : node.find? .count = (digitNodes .count start count).find? fun child => child.rule = .count := by
    rw [Node.find?, children, List.find?_cons_of_neg (by simpa using other)]
  rcases admissible with rfl | positive
  · rw [Node.count, found]
    rfl
  · obtain ⟨c, tail, rfl⟩ := List.exists_cons_of_ne_nil (positive.ne_nil)
    have counted : node.find? .count = some (spanning .count start (c :: tail) []) := found
    rw [Node.count, counted]
    simp only [unsigned_spanning _ _ _ _ (positive.ne_nil) positive.1, short]
    rfl

theorem selection_node (start : Nat) (selector : Selector) (count : List Char)
    (admissible : Count count) (short : Numeral.overlong? count = none) :
    ((Modifier.select selector count).node start).selection =
      .ok (selector.policy, (countValue count : Int)) := by
  have counted : ((Modifier.select selector count).node start).count = .ok (countValue count) :=
    count_node _ (spanning .selector start selector.text []) _ count rfl (by simp [spanning]) admissible short
  have found : ((Modifier.select selector count).node start).find? .selector =
      some (spanning .selector start selector.text []) := rfl
  have named : Node.policy? (spanning .selector start selector.text []).text = some selector.policy := by
    cases selector <;> rfl
  rw [Node.selection, found]
  simp only [named, counted]
  rfl

theorem modify_node (draft : Roll.Draft) (start : Nat) (modifier : Modifier)
    (admissible : modifier.Admissible) (short : modifier.overlong? = none) :
    Node.modify draft (modifier.node start) = .ok (modifier.amend draft) := by
  cases modifier with
  | explode twice => cases twice <;> rfl
  | select selector count =>
    have selected := selection_node start selector count admissible short
    have rule : ((Modifier.select selector count).node start).rule = selector.rule := rfl
    cases selector <;> simp only [Node.modify, rule, selected, Selector.rule] <;> rfl
  | reroll count =>
    have counted : ((Modifier.reroll count).node start).count = .ok (countValue count) :=
      count_node _ (spanning .selector start ['r'] []) _ count rfl (by simp [spanning]) admissible short
    have rule : ((Modifier.reroll count).node start).rule = .reroll := rfl
    simp only [Node.modify, rule, counted]
    rfl

theorem modifiers_foldlM (modifiers : List Modifier) (draft : Roll.Draft) (start : Nat)
    (admissible : ∀ modifier ∈ modifiers, modifier.Admissible)
    (short : modifiersOverlong? modifiers = none) :
    (modifierNodes start modifiers).foldlM Node.modify draft =
      .ok (modifiers.foldl Modifier.amend draft) := by
  induction modifiers generalizing draft start with
  | nil => rfl
  | cons modifier rest ih =>
    obtain ⟨first, others⟩ := Option.or_eq_none_iff.mp short
    rw [modifierNodes, List.foldlM_cons,
      modify_node draft start modifier (admissible modifier (by simp)) first]
    exact ih _ _ (fun m member => admissible m (by simp [member])) others

theorem dieSize_node (start : Nat) (size : Size) (admissible : size.Admissible)
    (short : size.overlong? = none) :
    (spanning .dieSize start size.text []).dieSize = .ok size.value := by
  cases size with
  | percent => rfl
  | digits run =>
    have digit : ∀ c ∈ run, c ≠ '%' := by
      rintro c member rfl
      exact absurd (admissible.1 '%' member) (by decide)
    have other : (spanning .dieSize start (Size.digits run).text []).text ≠ "%" := by
      intro same
      have text : run = ['%'] := by
        have letters := congrArg String.toList same
        rwa [show (spanning .dieSize start (Size.digits run).text []).text.toList = run from
          String.toList_ofList] at letters
      exact digit '%' (by rw [text]; simp) rfl
    obtain ⟨n, value⟩ := Nat.exists_eq_succ_of_ne_zero admissible.2.ne'
    have read := unsigned_spanning .dieSize start run [] admissible.ne_nil admissible.1
    rw [show Numeral.overlong? run = none from short] at read
    have unsigned : (spanning .dieSize start (Size.digits run).text []).unsigned =
      .ok (Numeral.value run) := read
    rw [Node.dieSize, if_neg other, unsigned, Size.value, value]
    rfl

theorem diceCount_nodes (start : Nat) (count : List Char) (size : Node) (rest : List Node)
    (digits : Digits count) (other : size.rule ≠ .diceNumber) :
    Node.diceCount (digitNodes .diceNumber start count ++ size :: rest) =
      match Numeral.overlong? count with
      | none => .ok (countValue count, size :: rest)
      | some length => .error (.overlong length) := by
  cases count with
  | nil => exact if_neg other
  | cons c tail =>
    have read := unsigned_spanning .diceNumber start (c :: tail) [] (by simp) digits
    change ((spanning .diceNumber start (c :: tail) []).unsigned.map _) = _
    rw [read]
    cases Numeral.overlong? (c :: tail) <;> rfl

theorem roll_node (start : Nat) (dice : Dice) (admissible : dice.Admissible)
    (short : dice.overlong? = none) : (dice.node start).roll = dice.roll := by
  obtain ⟨size, modifiers⟩ := Option.or_eq_none_iff.mp short
  have count := diceCount_nodes start dice.count
    (spanning .dieSize (start + dice.count.length + 1) dice.size.text [])
    (modifierNodes (start + dice.count.length + 1 + dice.size.text.length) dice.modifiers)
    admissible.count (by simp [spanning])
  have sized := dieSize_node (start + dice.count.length + 1) dice.size admissible.size size
  have draft : (dice.node start).rollDraft = match Numeral.overlong? dice.count with
      | none => .ok dice.draft
      | some length => .error (.overlong length) := by
    change (Node.diceCount (digitNodes .diceNumber start dice.count ++
      spanning .dieSize (start + dice.count.length + 1) dice.size.text [] ::
        modifierNodes (start + dice.count.length + 1 + dice.size.text.length) dice.modifiers) >>= _) = _
    rw [count]
    cases Numeral.overlong? dice.count with
    | some length => rfl
    | none =>
      change ((spanning .dieSize (start + dice.count.length + 1) dice.size.text []).dieSize >>= _) = _
      rw [sized]
      exact modifiers_foldlM dice.modifiers dice.base _ admissible.modifiers modifiers
  rw [Node.roll, draft, Dice.roll]
  cases Numeral.overlong? dice.count <;> rfl

theorem assemble_around (child : Node) : (Node.around .expression child).assemble = child.assemble := by
  rw [Node.around, Node.assemble, Node.assembleOnly]

theorem assemble_termNode (start : Nat) (before text : List Char) (inner : Node) :
    (termNode start before text inner).assemble = inner.assemble := by
  rw [termNode, Node.spanning, Node.assemble, Node.assembleOnly]

theorem assemble_operation (start : Nat) (text : List Char) (first : Node) (links : List Node)
    (even : links.length % 2 = 0) :
    (expressionNode start text (first :: links)).assemble =
      first.assemble.andThen fun left => Node.assembleLinks left links := by
  rw [expressionNode, assemble_around, Node.spanning, Node.assemble, Node.assembleOperation,
    if_pos even]

theorem assemble_diceRoll (start : Nat) (text : List Char) (children : List Node) :
    (spanning .diceRoll start text children).assemble =
      match (spanning .diceRoll start text children).roll with
      | .ok roll => .completed roll (.dice roll)
      | .error failure => .fail failure := by
  rewrite [Node.spanning, Node.assemble]
  rfl

theorem assemble_number (start : Nat) (text : List Char) (children : List Node) :
    (spanning .number start text children).assemble =
      (Assembly.ofExcept (spanning .number start text children).signed).andThen
        fun value => .value (.number value) := by
  rw [Node.spanning, Node.assemble]

theorem assemble_call (start : Nat) (text name : List Char) (argument : Node)
    (isArgument : argument.rule = .expression) :
    (spanning .function start text [spanning .identifier start name [], argument]).assemble =
      argument.assemble.andThen fun value => .value (.call (String.ofList name) value) := by
  have arguments : Node.assembleArgument? [spanning .identifier start name [], argument] =
      some argument.assemble := by
    rw [Node.assembleArgument?, if_neg (by simp [spanning]), Node.assembleArgument?,
      if_pos isArgument]
  rw [Node.spanning, Node.assemble]
  simp only [arguments]
  rfl

mutual
theorem Term.assemble_inner (term : Term) (start : Nat) (admissible : term.Admissible)
    (short : term.overlong? = none) : (term.inner start).assemble = term.assembly := by
  match term with
  | .dice dice =>
    have roll := roll_node start dice admissible short
    rw [Dice.node] at roll
    rewrite [Term.inner, Dice.node, assemble_diceRoll, roll, Term.assembly]
    cases dice.roll <;> rfl
  | .number negative digits =>
    have signed := signed_spanning start negative digits admissible.1 admissible.2
    rw [Term.inner, assemble_number, signed, Term.assembly]
    cases Numeral.overlong? digits <;> rfl
  | .call name beforeOpening afterOpening argument beforeClosing =>
    obtain ⟨_, shorts⟩ := Option.or_eq_none_iff.mp short
    obtain ⟨first, links, parts, even, assembled⟩ := argument.assemble_parts
      (start + name.length + beforeOpening.length + 1 + afterOpening.length) [] admissible.2.2.2.1 shorts
    rw [Term.inner, assemble_call _ _ _ _ rfl, parts, assemble_operation _ _ _ _ even, Term.assembly,
      ← assembled id]
    rfl
theorem Chain.assemble_parts (chain : Chain) (start : Nat) (before : List Char)
    (admissible : chain.Admissible) (short : chain.overlong? = none) :
    ∃ first links, chain.parts start before = first :: links ∧ links.length % 2 = 0 ∧
      ∀ join, (first.assemble.andThen fun value => Node.assembleLinks (join value) links) =
        chain.assemblyOnto join := by
  match chain with
  | .last term =>
    have inner := term.assemble_inner (start + before.length) admissible short
    refine ⟨_, [], rfl, rfl, ?_⟩
    intro join
    rw [assemble_termNode, inner]
    rfl
  | .link term joint rest =>
    obtain ⟨head, tail⟩ := Option.or_eq_none_iff.mp short
    have inner := term.assemble_inner (start + before.length) admissible.1 head
    obtain ⟨first, links, parts, even, assembled⟩ := rest.assemble_parts
      (start + before.length + term.text.length + joint.before.length + 1) joint.after
      admissible.2.2 tail
    refine ⟨_, _, rfl, ?_, ?_⟩
    · rw [parts]
      simp only [List.length_cons]
      omega
    · intro join
      rw [assemble_termNode, inner, Chain.assemblyOnto, parts]
      congr 1
      funext value
      rw [Node.assembleLinks]
      exact (if_pos rfl).trans (assembled _)
end

/-- The tree of a chain assembles to what the chain means. -/
theorem Chain.assemble_node (chain : Chain) (start : Nat) (after : List Char)
    (admissible : chain.Admissible) (short : chain.overlong? = none) :
    (chain.node start after).assemble = chain.assembly := by
  obtain ⟨first, links, parts, even, assembled⟩ := chain.assemble_parts start [] admissible short
  rw [Chain.node, parts, assemble_operation _ _ _ _ even]
  exact assembled id

end Tabletop.Phrase
