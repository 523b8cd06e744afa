import Tabletop.Proofs.Node.Stems
import Tabletop.Proofs.Phrase.Layout

/-! Spans of a tree in its text. A node carries the characters of its span, its children stand in turn and
apart from each other within the span, and its rule says which characters of the span are outside the
children: the d of a dice term, the parentheses of a call and layout. -/
namespace Tabletop
open Text (isLayout isBlank Ends Placed slice withoutLayout)

/-- What the characters of a span are that stand outside the children of its node. -/
def Rule.Leaves (text outside : List Char) : Rule → Prop
  | .diceRoll => outside = ['d']
  | .function => withoutLayout outside = ['(', ')']
  | .operation => Phrase.Layout outside
  | .term => outside = text.takeWhile isLayout
  | .expression => outside = []
  | .keep => outside = []
  | .drop => outside = []
  | .reroll => outside = []
  | _ => True

namespace Node

def outsideAmong (text : List Char) (start stop : Nat) : List Node → List Char
  | [] => slice text start stop
  | child :: rest => slice text start child.start ++ outsideAmong text child.stop stop rest

def outside (text : List Char) (node : Node) : List Char :=
  outsideAmong text node.start node.stop node.children

/-- The nodes stand within a span, in turn and apart from each other. -/
def Within (start stop : Nat) : List Node → Prop
  | [] => start ≤ stop
  | child :: rest => start ≤ child.start ∧ child.start < child.stop ∧ Within child.stop stop rest

/-- A node whose span accounts for all its characters. Only a term may begin with a blank, and only an
expression or an operation may end with one. -/
structure Accounted (text : List Char) (node : Node) : Prop where
  written : node.text.toList = slice text node.start node.stop
  proper : node.start < node.stop
  inside : node.stop ≤ text.length
  children : Within node.start node.stop node.children
  leaves : node.rule.Leaves node.text.toList (node.outside text)
  begins : node.rule ≠ .term → Ends isBlank node.text.toList
  ends : node.rule ∉ [Rule.expression, .operation] → Ends isBlank node.text.toList.reverse

structure Spaced (text : List Char) (start stop : Nat) (nodes : List Node) (gaps : List Char) : Prop where
  within : Within start stop nodes
  outside : outsideAmong text start stop nodes = gaps

theorem spaced_nil (text : List Char) (start : Nat) (gap : List Char) (placed : Placed text start gap) :
    Spaced text start (start + gap.length) [] gap :=
  ⟨Nat.le_add_right _ _, placed.slice⟩

theorem spaced_cons (text : List Char) (start stop : Nat) (gap : List Char) (child : Node)
    (rest : List Node) (others : List Char) (placed : Placed text start gap)
    (begins : child.start = start + gap.length) (proper : child.start < child.stop)
    (spaced : Spaced text child.stop stop rest others) :
    Spaced text start stop (child :: rest) (gap ++ others) := by
  refine ⟨⟨?_, proper, spaced.within⟩, ?_⟩
  · rw [begins]
    exact Nat.le_add_right _ _
  · rw [outsideAmong, begins, placed.slice, spaced.outside]

theorem spanning_proper (rule : Rule) (start : Nat) (part : List Char) (children : List Node)
    (some : part ≠ []) :
    (spanning rule start part children).start < (spanning rule start part children).stop :=
  Nat.lt_add_of_pos_right (List.length_pos_iff.mpr some)

theorem spaced_last (text : List Char) (start : Nat) (gap : List Char) (child : Node)
    (placed : Placed text start gap) (begins : child.start = start + gap.length)
    (proper : child.start < child.stop) : Spaced text start child.stop [child] gap := by
  have spaced := spaced_cons text start child.stop gap child [] [] placed begins proper
    (spaced_nil text child.stop [] (Text.placed_nil _ _))
  rwa [List.append_nil] at spaced

theorem accounted_spanning (text : List Char) (rule : Rule) (start : Nat) (part : List Char)
    (children : List Node) (gaps : List Char) (placed : Placed text start part) (some : part ≠ [])
    (spaced : Spaced text start (start + part.length) children gaps) (leaves : rule.Leaves part gaps)
    (begins : rule ≠ .term → Ends isBlank part)
    (ends : rule ∉ [Rule.expression, .operation] → Ends isBlank part.reverse) :
    Accounted text (spanning rule start part children) := by
  have same : (spanning rule start part children).text.toList = part := String.toList_ofList
  refine ⟨?_, spanning_proper rule start part children some, placed.le _ _ _ some, spaced.within, ?_, ?_, ?_⟩
  · rw [same]
    exact placed.slice.symm
  · have outside : (spanning rule start part children).outside text = gaps := spaced.outside
    rw [same, outside]
    exact leaves
  · rw [same]
    exact begins
  · rw [same]
    exact ends

end Node

namespace Phrase
open Node (spanning Spaced spaced_nil spaced_cons spaced_last accounted_spanning Accounted)

def Solid (part : List Char) : Prop := Ends isBlank part ∧ Ends isBlank part.reverse

theorem solid_of_all (part : List Char) (others : ∀ c ∈ part, isBlank c = false) : Solid part := by
  constructor
  · intro c first
    exact others c (List.mem_of_mem_head? first)
  · intro c last
    exact others c (List.mem_reverse.mp (List.mem_of_mem_head? last))

theorem solid_dense (part : List Char) (dense : Dense part) : Solid part :=
  solid_of_all part fun c member => isBlank_of_isTokenPart c (dense c member)

theorem ends_append (p : Char → Bool) (first second : List Char) (some : first ≠ []) :
    Ends p (first ++ second) ↔ Ends p first := by
  obtain ⟨c, tail, rfl⟩ := List.exists_cons_of_ne_nil some
  rw [List.cons_append, Text.ends_cons, Text.ends_cons]

theorem ends_reverse_append (p : Char → Bool) (first second : List Char) (some : second ≠ []) :
    Ends p (first ++ second).reverse ↔ Ends p second.reverse := by
  rw [List.reverse_append, ends_append p _ _ (List.reverse_ne_nil_iff.mpr some)]

theorem Term.text_ne_nil (term : Term) (admissible : term.Admissible) : term.text ≠ [] := by
  obtain ⟨c, tail, written, _⟩ := term.text_head admissible
  rw [written]
  exact List.cons_ne_nil c tail

theorem Chain.text_ne_nil (chain : Chain) (admissible : chain.Admissible) : chain.text ≠ [] := by
  obtain ⟨c, tail, written, _⟩ := chain.text_head admissible
  rw [written]
  exact List.cons_ne_nil c tail

theorem Solid.ends_layout (part : List Char) (solid : Solid part) : Ends isLayout part := by
  intro c first
  by_contra layout
  rw [Bool.not_eq_false] at layout
  have blank := Text.isBlank_of_isSpace c (Text.isSpace_of_isLayout c layout)
  rw [solid.1 c first] at blank
  cases blank

theorem Chain.begins (chain : Chain) (admissible : chain.Admissible) (rest : List Char) :
    Ends isBlank (chain.text ++ rest) := by
  obtain ⟨c, tail, text, start⟩ := chain.text_head admissible
  rw [text, List.cons_append, Text.ends_cons]
  exact isBlank_of_isTermStart c start

theorem Term.solid (term : Term) (admissible : term.Admissible) : Solid term.text := by
  have begins := (Chain.last term).begins admissible []
  rw [List.append_nil] at begins
  refine ⟨begins, ?_⟩
  cases term with
  | dice dice => exact (solid_dense _ (dice.dense admissible)).2
  | number negative digits =>
    have inside := (solid_dense _ (dense_digits digits admissible.2)).2
    cases negative with
    | true => exact (ends_reverse_append isBlank ['-'] digits admissible.1).mpr inside
    | false => exact inside
  | call name beforeOpening afterOpening argument beforeClosing =>
    have closed : (Term.call name beforeOpening afterOpening argument beforeClosing).text =
        (name ++ (beforeOpening ++ '(' :: (afterOpening ++ (argument.text ++ beforeClosing)))) ++ [')'] := by
      simp [Term.text]
    rw [closed, ends_reverse_append isBlank _ _ (List.cons_ne_nil _ _)]
    exact (Text.ends_cons _ _ _).mpr (by decide)

theorem spaced_digitNodes (text : List Char) (rule : Rule) (start stop : Nat) (digits : List Char)
    (others : List Node) (gaps : List Char) (behind : Spaced text (start + digits.length) stop others gaps) :
    Spaced text start stop (digitNodes rule start digits ++ others) gaps := by
  cases digits with
  | nil => exact behind
  | cons c tail =>
    exact spaced_cons text start stop [] (spanning rule start (c :: tail) []) others gaps (Text.placed_nil _ _)
      rfl (Node.spanning_proper _ _ _ _ (List.cons_ne_nil _ _)) behind

theorem spaced_selected (text : List Char) (start : Nat) (selector count : List Char) (some : selector ≠ []) :
    Spaced text start (start + (selector ++ count).length)
      (spanning .selector start selector [] :: digitNodes .count (start + selector.length) count) [] := by
  have counted := spaced_digitNodes text .count (start + selector.length) _ count [] []
    (spaced_nil text _ [] (Text.placed_nil _ _))
  rw [List.append_nil] at counted
  rw [List.length_append, ← Nat.add_assoc]
  exact spaced_cons text start _ [] (spanning .selector start selector []) _ [] (Text.placed_nil _ _) rfl
    (Node.spanning_proper _ _ _ _ some) counted

theorem spaced_modifiers (text : List Char) (start : Nat) (modifiers : List Modifier) :
    Spaced text start (start + (modifiers.flatMap Modifier.text).length) (modifierNodes start modifiers) [] := by
  induction modifiers generalizing start with
  | nil => exact spaced_nil text start [] (Text.placed_nil _ _)
  | cons modifier rest ih =>
    have others := ih (start + modifier.text.length)
    have same : (modifier.node start).start = start := by cases modifier <;> rfl
    have stops : (modifier.node start).stop = start + modifier.text.length := by cases modifier <;> rfl
    rw [List.flatMap_cons, List.length_append, ← Nat.add_assoc, modifierNodes]
    refine spaced_cons text start _ [] (modifier.node start) _ [] (Text.placed_nil _ _) same ?_ ?_
    · rw [same, stops]
      exact Nat.lt_add_of_pos_right (List.length_pos_iff.mpr modifier.text_ne_nil)
    · rw [stops]
      exact others

theorem Dice.spaced (text : List Char) (start : Nat) (dice : Dice) (placed : Placed text start dice.text)
    (admissible : dice.Admissible) :
    Spaced text start (start + dice.text.length) (dice.node start).children ['d'] := by
  obtain ⟨_, mark, _, _⟩ := (dice.placed text start).mp placed
  have sized : dice.size.text ≠ [] := by
    have positive := admissible.size
    cases same : dice.size with
    | percent => exact List.cons_ne_nil _ _
    | digits run =>
      rw [same] at positive
      exact positive.ne_nil
  have others := spaced_modifiers text (start + dice.count.length + 1 + dice.size.text.length) dice.modifiers
  have stops : start + dice.text.length = start + dice.count.length + 1 + dice.size.text.length +
      (dice.modifiers.flatMap Modifier.text).length := by
    simp only [Dice.text, List.length_append, List.length_cons]
    omega
  have behind : Spaced text (start + dice.count.length) (start + dice.text.length)
      (spanning .dieSize (start + dice.count.length + 1) dice.size.text [] ::
        modifierNodes (start + dice.count.length + 1 + dice.size.text.length) dice.modifiers) ['d'] := by
    rw [stops]
    exact spaced_cons text _ _ ['d'] (spanning .dieSize (start + dice.count.length + 1) dice.size.text []) _ []
      mark rfl (Node.spanning_proper _ _ _ _ sized) others
  exact spaced_digitNodes text .diceNumber start _ dice.count _ ['d'] behind

theorem Term.inner_start (term : Term) (start : Nat) : (term.inner start).start = start := by
  cases term <;> rfl

theorem Term.inner_stop (term : Term) (start : Nat) : (term.inner start).stop = start + term.text.length := by
  cases term <;> rfl

theorem Term.inner_proper (term : Term) (start : Nat) (admissible : term.Admissible) :
    (term.inner start).start < (term.inner start).stop := by
  rw [term.inner_start, term.inner_stop]
  exact Nat.lt_add_of_pos_right (List.length_pos_iff.mpr (term.text_ne_nil admissible))

theorem Chain.extent_parts (chain : Chain) (after : List Char) :
    ∃ taken left, chain.extent after = chain.text ++ taken ∧ after = taken ++ left := by
  cases chain with
  | last term => exact ⟨after, [], rfl, (List.append_nil after).symm⟩
  | link term joint rest => exact ⟨[], after, (List.append_nil _).symm, rfl⟩

theorem Chain.extent_ne_nil (chain : Chain) (after : List Char) (admissible : chain.Admissible) :
    chain.extent after ≠ [] := by
  obtain ⟨taken, left, extent, _⟩ := chain.extent_parts after
  rw [extent]
  exact List.append_ne_nil_of_left_ne_nil (chain.text_ne_nil admissible) taken

theorem Chain.extent_begins (chain : Chain) (after : List Char) (admissible : chain.Admissible) :
    Ends isBlank (chain.extent after) := by
  obtain ⟨taken, left, extent, _⟩ := chain.extent_parts after
  rw [extent]
  exact chain.begins admissible taken

section Chains

variable (text : List Char) (runs : List (List Char))

theorem termNode_proper (start : Nat) (before : List Char) (term : Term) (inner : Node)
    (admissible : term.Admissible) :
    (termNode start before term.text inner).start < (termNode start before term.text inner).stop :=
  Node.spanning_proper _ _ _ _ (List.append_ne_nil_of_right_ne_nil before (term.text_ne_nil admissible))

theorem Chain.spaced_parts (chain : Chain) (start : Nat) (before after : List Char)
    (stands : chain.Stands text runs (start + before.length) after) :
    ∃ gaps, Layout gaps ∧
      Spaced text start (start + before.length + (chain.text ++ after).length) (chain.parts start before)
        gaps := by
  cases chain with
  | last term =>
    have first := termNode_proper start before term (term.inner (start + before.length))
      stands.legible.admissible
    have stops : (termNode start before term.text (term.inner (start + before.length))).stop =
        start + before.length + term.text.length := by
      simp [termNode, spanning, Nat.add_assoc]
    have behind := ((Text.placed_append _ _ _ _).mp stands.placed).2
    refine ⟨after, stands.layout, ?_⟩
    rw [Chain.text, List.length_append, ← Nat.add_assoc]
    refine spaced_cons text start _ [] _ [] after (Text.placed_nil _ _) rfl first ?_
    rw [stops]
    exact spaced_nil text _ after behind
  | link term joint rest =>
    obtain ⟨_, before', mark, _, _⟩ := (Chain.link_placed _ _ _ _ _ _).mp stands.placed
    obtain ⟨gaps, layout, others⟩ := rest.spaced_parts
      (start + before.length + term.text.length + joint.before.length + 1) joint.after after stands.rest
    have first := termNode_proper start before term (term.inner (start + before.length))
      stands.legible.admissible.1
    have stops : (termNode start before term.text (term.inner (start + before.length))).stop =
        start + before.length + term.text.length := by
      simp [termNode, spanning, Nat.add_assoc]
    have whole : start + before.length + ((Chain.link term joint rest).text ++ after).length =
        start + before.length + term.text.length + joint.before.length + 1 + joint.after.length +
          (rest.text ++ after).length := by
      simp only [Chain.text, Joint.text, List.length_append, List.length_cons]
      omega
    refine ⟨joint.before ++ gaps, List.forall_mem_append.mpr ⟨stands.legible.admissible.2.1.before, layout⟩, ?_⟩
    -- The layout behind the operator is no gap: the next term takes it along.
    rw [Chain.parts, whole]
    refine spaced_cons text start _ [] _ _ _ (Text.placed_nil _ _) rfl first ?_
    rw [stops]
    refine spaced_cons text _ _ joint.before (spanning .operator _ [joint.operator.char] []) _ gaps before' rfl
      (Node.spanning_proper _ _ _ _ (List.cons_ne_nil _ _)) others

theorem Chain.Stands.extent (start : Nat) (chain : Chain) (after : List Char)
    (stands : chain.Stands text runs start after) :
    ∃ taken, chain.extent after = chain.text ++ taken ∧ chain.Stands text runs start taken := by
  obtain ⟨taken, left, extent, rfl⟩ := chain.extent_parts after
  obtain ⟨placed, layout, legible, converted⟩ := stands
  rw [← List.append_assoc, Text.placed_append] at placed
  exact ⟨taken, extent, placed.1, (List.forall_mem_append.mp layout).1, legible, converted⟩

theorem Chain.spaced_operation (start : Nat) (chain : Chain) (after : List Char)
    (stands : chain.Stands text runs start after) :
    ∃ gaps, Layout gaps ∧
      Spaced text start (start + (chain.extent after).length) (chain.parts start []) gaps := by
  obtain ⟨taken, extent, stands⟩ := stands.extent
  rw [extent]
  exact chain.spaced_parts text runs start [] taken stands

theorem Term.spaced_call (start : Nat) (name beforeOpening afterOpening : List Char) (argument : Chain)
    (beforeClosing : List Char)
    (stands : (Term.call name beforeOpening afterOpening argument beforeClosing).Stands text runs start) :
    ∃ gaps, withoutLayout gaps = ['(', ')'] ∧
      Spaced text start
        (start + (Term.call name beforeOpening afterOpening argument beforeClosing).text.length)
        ((Term.call name beforeOpening afterOpening argument beforeClosing).inner start).children gaps := by
  obtain ⟨isName, before, after, admissible, closing⟩ := stands.legible.admissible
  obtain ⟨taken, left, extent, split⟩ := argument.extent_parts beforeClosing
  have some := argument.extent_ne_nil beforeClosing admissible
  have written : (Term.call name beforeOpening afterOpening argument beforeClosing).text =
      name ++ ((beforeOpening ++ '(' :: afterOpening) ++
        (argument.extent beforeClosing ++ (left ++ [')']))) := by
    rw [extent, Term.text, split]
    simp
  have placed := stands.placed
  rw [written, Text.placed_append, Text.placed_append,
    Text.placed_append _ _ (argument.extent beforeClosing)] at placed
  obtain ⟨_, opening, _, closes⟩ := placed
  have layout : Layout left := by
    rw [split] at closing
    exact (List.forall_mem_append.mp closing).2
  refine ⟨(beforeOpening ++ '(' :: afterOpening) ++ (left ++ [')']), ?_, ?_⟩
  · rw [withoutLayout_append, withoutLayout_append, withoutLayout_append, withoutLayout_layout _ before,
      withoutLayout_cons _ _ (by decide), withoutLayout_layout _ after, withoutLayout_layout _ layout]
    rfl
  · have begins : start + name.length + beforeOpening.length + 1 + afterOpening.length =
        start + name.length + (beforeOpening ++ '(' :: afterOpening).length := by
      rw [List.length_append, List.length_cons]
      omega
    have stops : start + (Term.call name beforeOpening afterOpening argument beforeClosing).text.length =
        start + name.length + beforeOpening.length + 1 + afterOpening.length +
          (argument.extent beforeClosing).length + (left ++ [')']).length := by
      rw [written]
      simp only [List.length_append, List.length_cons]
      omega
    rw [stops]
    rw [← begins] at closes
    refine spaced_cons text start _ [] (spanning .identifier start name []) _ _ (Text.placed_nil _ _) rfl ?_ ?_
    · obtain ⟨c, tail, same, _⟩ := isName.identifier
      rw [same]
      exact Node.spanning_proper _ _ _ _ (List.cons_ne_nil _ _)
    · refine spaced_cons text (start + name.length) _ _ (expressionNode _ _ _) [] _ opening begins ?_ ?_
      · exact Nat.lt_add_of_pos_right (List.length_pos_iff.mpr some)
      · exact spaced_nil text _ _ closes

theorem Modifier.accounted (start : Nat) (modifier : Modifier) (placed : Placed text start modifier.text)
    (admissible : modifier.Admissible) : Accounted text (modifier.node start) := by
  have solid := solid_dense modifier.text (modifier.dense admissible)
  cases modifier with
  | explode twice =>
    exact accounted_spanning text .exploding start _ [] _ placed (Modifier.text_ne_nil _)
      (spaced_nil text start _ placed) trivial (fun _ => solid.1) (fun _ => solid.2)
  | select selector count =>
    have some : selector.text ≠ [] := by
      cases selector <;> exact List.cons_ne_nil _ _
    have leaves : selector.rule.Leaves (Modifier.select selector count).text [] := by
      cases selector <;> rfl
    exact accounted_spanning text selector.rule start _ _ [] placed (Modifier.text_ne_nil _)
      (spaced_selected text start selector.text count some) leaves (fun _ => solid.1) (fun _ => solid.2)
  | reroll count =>
    exact accounted_spanning text .reroll start _ _ [] placed (Modifier.text_ne_nil _)
      (spaced_selected text start ['r'] count (List.cons_ne_nil _ _)) rfl (fun _ => solid.1) (fun _ => solid.2)

theorem Term.accounted (start : Nat) (term : Term) (stands : term.Stands text runs start) :
    Accounted text (term.inner start) := by
  have some := term.text_ne_nil stands.legible.admissible
  have solid := term.solid stands.legible.admissible
  cases term with
  | dice dice =>
    exact accounted_spanning text .diceRoll start _ _ ['d'] stands.placed some
      (dice.spaced text start stands.placed stands.legible.admissible) rfl (fun _ => solid.1) (fun _ => solid.2)
  | number negative digits =>
    exact accounted_spanning text .number start _ [] _ stands.placed some
      (spaced_nil text start _ stands.placed) trivial (fun _ => solid.1) (fun _ => solid.2)
  | call name beforeOpening afterOpening argument beforeClosing =>
    obtain ⟨gaps, parentheses, spaced⟩ := Term.spaced_call text runs start _ _ _ _ _ stands
    exact accounted_spanning text .function start _ _ gaps stands.placed some spaced parentheses
      (fun _ => solid.1) (fun _ => solid.2)

theorem Piece.accounted (node : Node) (piece : Piece text node) : Accounted text node := by
  cases piece with
  | modifier start modifier placed admissible => exact modifier.accounted text start placed admissible
  | symbol rule start symbol isSymbol placed some solid =>
    have leaves : rule.Leaves symbol symbol := by
      have free : ∀ rule ∈ symbolRules, ∀ gaps, rule.Leaves symbol gaps := by
        simp [symbolRules, Rule.Leaves]
      exact free rule isSymbol symbol
    have solid := solid_of_all symbol solid
    exact accounted_spanning text rule start symbol [] symbol placed some (spaced_nil text start symbol placed)
      leaves (fun _ => solid.1) (fun _ => solid.2)

theorem Stem.accounted (node : Node) (stem : Stem text runs node) : Accounted text node := by
  cases stem with
  | expression start chain after stands =>
    have some := chain.extent_ne_nil after stands.legible.admissible
    have begins := chain.extent_begins after stands.legible.admissible
    obtain ⟨taken, extent, inside⟩ := stands.extent
    have placed : Placed text start (chain.extent after) := extent ▸ inside.placed
    exact accounted_spanning text .expression start _ _ [] placed some
      (spaced_last text start [] (spanning .operation start (chain.extent after) _) (Text.placed_nil _ _) rfl
        (Node.spanning_proper _ _ _ _ some))
      rfl (fun _ => begins) (fun other => absurd other (by decide))
  | operation start chain after stands =>
    have some := chain.extent_ne_nil after stands.legible.admissible
    have begins := chain.extent_begins after stands.legible.admissible
    obtain ⟨gaps, layout, spaced⟩ := chain.spaced_operation text runs start after stands
    obtain ⟨taken, extent, inside⟩ := stands.extent
    have placed : Placed text start (chain.extent after) := extent ▸ inside.placed
    exact accounted_spanning text .operation start _ _ gaps placed some spaced layout (fun _ => begins)
      (fun other => absurd other (by decide))
  | term start before term layout placed stands =>
    have some := term.text_ne_nil stands.legible.admissible
    have solid := term.solid stands.legible.admissible
    have whole := (Text.placed_append text start before term.text).mpr ⟨placed, stands.placed⟩
    have spaced : Spaced text start (start + (before ++ term.text).length)
        [term.inner (start + before.length)] before := by
      have spaced := spaced_last text start before (term.inner (start + before.length)) placed
        (term.inner_start _) (term.inner_proper _ stands.legible.admissible)
      rwa [term.inner_stop, Nat.add_assoc, ← List.length_append] at spaced
    have leaves : before = (before ++ term.text).takeWhile isLayout :=
      (Text.takeWhile_run isLayout before term.text layout solid.ends_layout).symm
    have ends := (ends_reverse_append isBlank before term.text some).mpr solid.2
    exact accounted_spanning text .term start _ _ before whole
      (List.append_ne_nil_of_right_ne_nil before some) spaced leaves (fun other => absurd rfl other)
      (fun _ => ends)
  | inner start term stands => exact term.accounted text runs start stands
  | piece node piece => exact piece.accounted text node

end Chains

end Phrase
end Tabletop
