import Tabletop.Proofs.Node.Spans
import Tabletop.Proofs.Reading.Exactness

/-! The spans of the tree of a text. The tree accounts for every character of the text, but spans are not
trimmed everywhere: a term begins with the layout behind its operator, and an expression of a single term
ends with the layout behind it. Spans are trimmed exactly in the trees of texts without such layout. -/
namespace Tabletop
open Text (isLayout isBlank Ends)

def Node.Trim (node : Node) : Prop := Phrase.Solid node.text.toList

namespace Phrase
open Node (spanning nodesAmong)

def Chain.Lone : Chain → Prop
  | .last _ => True
  | .link _ _ _ => False

mutual
def Term.Snug : Term → Prop
  | .dice _ => True
  | .number _ _ => True
  | .call _ _ _ argument beforeClosing => (argument.Lone → beforeClosing = []) ∧ argument.Snug
def Chain.Snug : Chain → Prop
  | .last term => term.Snug
  | .link term joint rest => term.Snug ∧ joint.after = [] ∧ rest.Snug
end

theorem trim_spanning (rule : Rule) (start : Nat) (part : List Char) (children : List Node) :
    (spanning rule start part children).Trim ↔ Solid part := by
  rw [Node.Trim, spanning, String.toList_ofList]

theorem ends_layout_iff (layout : List Char) (layouts : Layout layout) : Ends isBlank layout ↔ layout = [] := by
  constructor
  · intro ends
    cases layout with
    | nil => rfl
    | cons c rest =>
      have inside := layouts c List.mem_cons_self
      have blank := Text.isBlank_of_isSpace c (Text.isSpace_of_isLayout c inside)
      rw [(Text.ends_cons _ _ _).mp ends] at blank
      cases blank
  · rintro rfl
    exact Text.ends_nil isBlank

theorem layout_reverse (layout : List Char) (layouts : Layout layout) : Layout layout.reverse := by
  intro c member
  exact layouts c (List.mem_reverse.mp member)

theorem solid_behind (before part : List Char) (layout : Layout before) (solid : Solid part) :
    Solid (before ++ part) ↔ before = [] := by
  constructor
  · rintro ⟨begins, _⟩
    by_contra some
    exact some ((ends_layout_iff before layout).mp ((ends_append isBlank before part some).mp begins))
  · rintro rfl
    exact solid

theorem solid_before (part after : List Char) (layout : Layout after) (solid : Solid part) :
    Solid (part ++ after) ↔ after = [] := by
  constructor
  · rintro ⟨_, ends⟩
    by_contra some
    have reversed := (ends_reverse_append isBlank part after some).mp ends
    exact some (List.reverse_eq_nil_iff.mp ((ends_layout_iff _ (layout_reverse after layout)).mp reversed))
  · rintro rfl
    rw [List.append_nil]
    exact solid

theorem Chain.solid (chain : Chain) (admissible : chain.Admissible) : Solid chain.text := by
  refine ⟨?_, ?_⟩
  · have begins := chain.begins admissible []
    rwa [List.append_nil] at begins
  · cases chain with
    | last term => exact (term.solid admissible).2
    | link term joint rest =>
      rw [Chain.text, ← List.append_assoc, ends_reverse_append isBlank _ _ (rest.text_ne_nil admissible.2.2)]
      exact (rest.solid admissible.2.2).2

theorem Chain.solid_extent (chain : Chain) (after : List Char) (admissible : chain.Admissible)
    (layout : Layout after) : Solid (chain.extent after) ↔ (chain.Lone → after = []) := by
  cases chain with
  | last term =>
    rw [Chain.extent, solid_before _ _ layout (term.solid admissible)]
    exact ⟨fun same _ => same, fun same => same trivial⟩
  | link term joint rest => exact iff_of_true ((Chain.link term joint rest).solid admissible) False.elim

section Trees

variable (text : List Char) (runs : List (List Char))

theorem Piece.trim (node : Node) (piece : Piece text node) : node.Trim := by
  have inside := piece.rule_mem
  have others : ∀ rule ∈ pieceRules, rule ≠ .term ∧ rule ∉ [Rule.expression, .operation] := by
    decide
  obtain ⟨noTerm, noChain⟩ := others node.rule inside
  have accounted := piece.accounted text node
  exact ⟨accounted.begins noTerm, accounted.ends noChain⟩

mutual
theorem Term.trim_iff (term : Term) (start : Nat) (stands : term.Stands text runs start) :
    (∀ node ∈ (term.inner start).nodes, node.Trim) ↔ term.Snug := by
  have solid := term.solid stands.legible.admissible
  have own : (term.inner start).Trim := by
    cases term <;> exact (trim_spanning _ _ _ _).mpr solid
  rw [Node.forall_nodes, and_iff_right own]
  match term with
  | .dice dice =>
    -- A dice term has no place for layout, so all nodes inside it are trimmed.
    refine iff_of_true ?_ trivial
    intro node member
    exact (piece_dice text start dice stands.placed stands.legible.admissible node member).trim
  | .number negative digits => exact iff_of_true (Node.forall_nodesAmong_nil _) trivial
  | .call name beforeOpening afterOpening argument beforeClosing =>
    have isName := stands.legible.admissible.1
    have named : (spanning .identifier start name []).Trim :=
      (trim_spanning _ _ _ _).mpr (solid_dense name (dense_name name isName.parts))
    have inside := argument.trim_node _ beforeClosing stands.argument
    change (∀ node ∈ nodesAmong [_, _], node.Trim) ↔ _
    rw [Node.forall_nodesAmong_cons, Node.forall_nodesAmong_cons, Node.forall_nodes, Term.Snug, ← inside]
    exact ⟨fun all => all.2.1,
      fun all => ⟨⟨named, Node.forall_nodesAmong_nil _⟩, all, Node.forall_nodesAmong_nil _⟩⟩
theorem Term.trim_term (term : Term) (start : Nat) (before : List Char) (layout : Layout before)
    (stands : term.Stands text runs (start + before.length)) :
    (∀ node ∈ (termNode start before term.text (term.inner (start + before.length))).nodes, node.Trim) ↔
      before = [] ∧ term.Snug := by
  have own := trim_spanning .term start (before ++ term.text) [term.inner (start + before.length)]
  have solid := solid_behind before term.text layout (term.solid stands.legible.admissible)
  have inside := term.trim_iff (start + before.length) stands
  rw [Node.forall_nodes]
  change _ ∧ (∀ node ∈ nodesAmong [_], node.Trim) ↔ _
  rw [Node.forall_nodesAmong_cons, and_iff_left (Node.forall_nodesAmong_nil _), inside]
  exact and_congr_left fun _ => own.trans solid
theorem Chain.trim_node (chain : Chain) (start : Nat) (after : List Char)
    (stands : chain.Stands text runs start after) :
    (∀ node ∈ (chain.node start after).nodes, node.Trim) ↔ (chain.Lone → after = []) ∧ chain.Snug := by
  have extent := chain.solid_extent after stands.legible.admissible stands.layout
  have parts := chain.trim_parts start [] after layout_nil stands
  rw [and_iff_right rfl] at parts
  have own := trim_spanning .expression start (chain.extent after) [spanning .operation start (chain.extent after)
    (chain.parts start [])]
  have inner := trim_spanning .operation start (chain.extent after) (chain.parts start [])
  rw [Node.forall_nodes]
  change _ ∧ (∀ node ∈ nodesAmong [_], node.Trim) ↔ _
  rw [Node.forall_nodesAmong_cons, Node.forall_nodes]
  constructor
  · rintro ⟨whole, ⟨_, all⟩, _⟩
    exact ⟨extent.mp (own.mp whole), parts.mp all⟩
  · rintro ⟨taken, snug⟩
    have solid := extent.mpr taken
    exact ⟨own.mpr solid, ⟨inner.mpr solid, parts.mpr snug⟩, Node.forall_nodesAmong_nil _⟩
theorem Chain.trim_parts (chain : Chain) (start : Nat) (before after : List Char) (layout : Layout before)
    (stands : chain.Stands text runs (start + before.length) after) :
    (∀ node ∈ nodesAmong (chain.parts start before), node.Trim) ↔ before = [] ∧ chain.Snug := by
  match chain with
  | .last term =>
    have whole := term.trim_term start before layout stands.only
    rw [Chain.parts, Node.forall_nodesAmong_cons, whole, and_iff_left (Node.forall_nodesAmong_nil _)]
    rfl
  | .link term joint rest =>
    have whole := term.trim_term start before layout stands.first
    have others := rest.trim_parts
      (start + before.length + term.text.length + joint.before.length + 1) joint.after after
      stands.legible.admissible.2.1.after stands.rest
    have operator : ∀ node ∈ (spanning .operator
        (start + before.length + term.text.length + joint.before.length) [joint.operator.char] []).nodes,
        node.Trim := by
      rw [Node.forall_nodes]
      refine ⟨(trim_spanning _ _ _ _).mpr (solid_of_all _ ?_), Node.forall_nodesAmong_nil _⟩
      apply Text.eq_false_of_any
      cases joint.operator <;> decide
    rw [Chain.parts, Node.forall_nodesAmong_cons, Node.forall_nodesAmong_cons, whole, others,
      and_iff_right operator, and_assoc]
    rfl
end

end Trees

theorem Derives.surroundings (phrase : Phrase) (text : String) (derives : phrase.Derives text) :
    Layout (text.toList.take phrase.node.start) ∧ Layout (text.toList.drop phrase.node.stop) := by
  obtain ⟨taken, left, extent, after⟩ := phrase.chain.extent_parts phrase.after
  have written : phrase.before ++ (phrase.chain.extent phrase.after ++ left) = text.toList := by
    rw [← derives.written, Phrase.text, extent, List.append_assoc, ← after]
  have start : phrase.node.start = phrase.before.length := rfl
  have stop : phrase.node.stop = (phrase.before ++ phrase.chain.extent phrase.after).length :=
    List.length_append.symm
  constructor
  · rw [start, ← written, List.take_left]
    exact derives.before
  · rw [stop, ← written, ← List.append_assoc, List.drop_left]
    have layout := derives.after
    rw [after] at layout
    exact (List.forall_mem_append.mp layout).2

end Phrase

/-- There is no layout behind the operators of a phrase, nor behind chains of a single term. -/
def Phrase.Snug (phrase : Phrase) : Prop :=
  (phrase.chain.Lone → phrase.after = []) ∧ phrase.chain.Snug

/-- The span of the node neither begins nor ends with a blank, and a term spans no more than its child. -/
def Node.Tight (text : List Char) (node : Node) : Prop :=
  node.Trim ∧ (node.rule = .term → node.outside text = [])

theorem Node.Accounted.tight_iff (text : List Char) (node : Node) (accounted : node.Accounted text) :
    node.Tight text ↔ node.Trim := by
  constructor
  · exact fun tight => tight.1
  · intro trim
    refine ⟨trim, ?_⟩
    intro isTerm
    have leaves := accounted.leaves
    rw [isTerm] at leaves
    exact leaves.trans (Text.takeWhile_of_ends _ _ trim.ends_layout)

/-- The tree of a text accounts for all its characters. All spans are tight exactly if no layout stands
behind an operator and none behind a chain of a single term. -/
theorem readTree_spans (text : String) (tree : Node) (accepted : readTree text = .ok tree) :
    (∀ node ∈ tree.nodes, node.Accounted text.toList) ∧
    Phrase.Layout (text.toList.take tree.start) ∧ Phrase.Layout (text.toList.drop tree.stop) ∧
    ∃ phrase : Phrase, phrase.Derives text ∧ phrase.node = tree ∧
      ((∀ node ∈ tree.nodes, node.Tight text.toList) ↔ phrase.Snug) := by
  obtain ⟨phrase, derives, short, shallow, rfl⟩ := readTree_sound text tree accepted
  have accounted : ∀ node ∈ phrase.node.nodes, node.Accounted text.toList := fun node member =>
    (derives.stem phrase text short shallow node member).accounted
  obtain ⟨before, behind⟩ := derives.surroundings phrase text
  have trimmed := phrase.chain.trim_node _ _ _ phrase.after (derives.stands phrase text short shallow)
  refine ⟨accounted, before, behind, phrase, derives, rfl, ?_⟩
  rw [Phrase.Snug, ← trimmed]
  exact forall₂_congr fun node member => (accounted node member).tight_iff

/-- Layout before a text, before an operator and behind a chain of several terms leaves all spans tight. -/
theorem readTree_spans_sum :
    ∃ tree, readTree " 1 +d6 " = .ok tree ∧ tree.text = "1 +d6" ∧
      (∀ node ∈ tree.nodes, node.Accounted " 1 +d6 ".toList) ∧
      ∀ node ∈ tree.nodes, node.Tight " 1 +d6 ".toList := by
  let dice : Phrase.Dice := ⟨[], .digits ['6'], []⟩
  let phrase : Phrase := ⟨[' '], .link (.number false ['1']) ⟨[' '], .plus, []⟩ (.last (.dice dice)), [' ']⟩
  have one := Phrase.digits_replicate 1 '1' (by decide)
  have admissible := Phrase.Dice.sixSided_admissible [] Phrase.digits_nil
  have derives : phrase.Derives " 1 +d6 " :=
    ⟨rfl, Phrase.layout_blank, ⟨⟨by decide, one⟩, ⟨Phrase.layout_blank, Phrase.layout_nil⟩,
      admissible⟩, Phrase.layout_blank⟩
  have accepted := readTree_complete phrase _ derives (by decide) (by decide)
  obtain ⟨accounted, _, _, other, derives', _, tight⟩ := readTree_spans _ _ accepted
  have same := derives.eq_of_short phrase other _ derives' (by decide)
  rw [← same] at tight
  exact ⟨phrase.node, accepted, rfl, accounted, tight.mpr ⟨False.elim, trivial, rfl, trivial⟩⟩

/-- A term takes along the layout behind its operator, and a chain of a single term the layout behind it. -/
theorem not_tight_operand :
    (∃ tree, readTree "1 + d6" = .ok tree ∧ ∃ node ∈ tree.nodes, node.rule = .term ∧ node.text = " d6" ∧
      node.outside "1 + d6".toList = [' '] ∧ ¬ node.Tight "1 + d6".toList) ∧
    ∃ tree, readTree "d6 " = .ok tree ∧ tree.text = "d6 " ∧ ¬ tree.Tight "d6 ".toList := by
  let dice : Phrase.Dice := ⟨[], .digits ['6'], []⟩
  let sum : Phrase := ⟨[], .link (.number false ['1']) ⟨[' '], .plus, [' ']⟩ (.last (.dice dice)), []⟩
  let lone : Phrase := ⟨[], .last (.dice dice), [' ']⟩
  have one := Phrase.digits_replicate 1 '1' (by decide)
  have admissible := Phrase.Dice.sixSided_admissible [] Phrase.digits_nil
  have summed : sum.Derives "1 + d6" :=
    ⟨rfl, Phrase.layout_nil, ⟨⟨by decide, one⟩, ⟨Phrase.layout_blank, Phrase.layout_blank⟩,
      admissible⟩, Phrase.layout_nil⟩
  have alone : lone.Derives "d6 " := ⟨rfl, Phrase.layout_nil, admissible, Phrase.layout_blank⟩
  refine ⟨⟨sum.node, readTree_complete sum _ summed (by decide) (by decide), ?_⟩,
    lone.node, readTree_complete lone _ alone (by decide) (by decide), rfl, ?_⟩
  · refine ⟨Phrase.termNode 3 [' '] dice.text (dice.node 4), List.mem_of_getElem? (i := 5) rfl, rfl, rfl, rfl, ?_⟩
    intro tight
    exact absurd (tight.2 rfl) (by decide)
  · intro tight
    exact absurd (tight.1.2 ' ' (by decide)) (by decide)

end Tabletop
