import Tabletop.Proofs.Node.Moved
import Tabletop.Proofs.Node.Stems
import Tabletop.Proofs.Reading.Contract
import Tabletop.Proofs.Reading.Normal

/-! Parts of a text on their own. What follows a part of a text has no influence on how the part is read:
the text of an expression within a tree has that part of the tree for its own tree, and the text of any
part that has a value is read as what the part is assembled to. -/
namespace Tabletop

namespace Phrase
open Node (spanning)

def Chain.alone (after : List Char) (chain : Chain) : Phrase where
  before := []
  chain := chain
  after := match chain with
    | .last _ => after
    | .link _ _ _ => []

def Term.alone (before : List Char) (term : Term) : Phrase := ⟨before, .last term, []⟩

theorem Chain.alone_text (chain : Chain) (after : List Char) :
    (chain.alone after).text = chain.extent after := by
  cases chain with
  | last term => rfl
  | link term joint rest => exact List.append_nil _

theorem Chain.alone_node (chain : Chain) (after : List Char) :
    (chain.alone after).node = chain.node 0 after := by
  cases chain with
  | last term => rfl
  | link term joint rest => rfl

theorem Chain.alone_derives (text : List Char) (runs : List (List Char)) (start : Nat) (chain : Chain)
    (after : List Char) (stands : chain.Stands text runs start after) :
    (chain.alone after).Derives (String.ofList (chain.extent after)) := by
  refine ⟨?_, layout_nil, stands.legible.admissible, ?_⟩
  · rw [chain.alone_text, String.toList_ofList]
  · cases chain with
    | last term => exact stands.layout
    | link term joint rest => exact layout_nil

theorem Term.alone_derives (text : List Char) (runs : List (List Char)) (start : Nat) (before : List Char)
    (term : Term) (layout : Layout before) (stands : term.Stands text runs start) :
    (term.alone before).Derives (String.ofList (before ++ term.text)) := by
  refine ⟨?_, layout, stands.legible.admissible, layout_nil⟩
  rw [String.toList_ofList]
  exact congrArg (before ++ ·) (List.append_nil _)

theorem Term.alone_assembly (before : List Char) (term : Term) :
    (term.alone before).chain.assembly = term.assembly := Assembly.andThen_value _

/-- The text of an expression within a tree has that part of the tree for its own tree. -/
theorem Chain.readTree_extent (text : List Char) (runs : List (List Char)) (start : Nat) (chain : Chain)
    (after : List Char) (stands : chain.Stands text runs start after) :
    readTree (String.ofList (chain.extent after)) = .ok (chain.node 0 after) := by
  rw [readTree_complete (chain.alone after) _ (chain.alone_derives text runs start after stands)
    stands.legible.short stands.legible.shallow, chain.alone_node]

theorem read_of_assemble (node : Node) (phrase : Phrase) (derives : phrase.Derives node.text)
    (short : phrase.chain.overlong? = none) (shallow : phrase.chain.depth ≤ Nesting.limit)
    (convertible : Convertible phrase.chain.conversions)
    (assembled : node.assemble = phrase.chain.assembly) :
    ∃ reading, node.reading = .ok reading ∧ read node.text = .ok reading := by
  obtain ⟨reading, found⟩ := (read_iff_convertible phrase node.text derives shallow).mpr convertible
  refine ⟨reading, ?_, found⟩
  rw [← found, read_complete phrase node.text derives shallow, short, Node.reading, assembled]

theorem Stem.read_alone (text : List Char) (runs : List (List Char)) (node : Node)
    (stem : Stem text runs node) (convertible : Convertible runs)
    (value : node.rule ∈ [Rule.operation, .term, .function, .diceRoll, .number]) :
    ∃ reading, node.reading = .ok reading ∧ read node.text = .ok reading := by
  cases stem with
  | expression start chain after stands => exact absurd value (by decide : Rule.expression ∉ _)
  | operation start chain after stands =>
    have assembled := chain.assemble_node start after stands.legible.admissible stands.legible.short
    rw [Chain.node, expressionNode, assemble_around] at assembled
    exact read_of_assemble _ (chain.alone after) (chain.alone_derives text runs start after stands)
      stands.legible.short stands.legible.shallow (fun run member => convertible run (stands.converted member))
      assembled
  | term start before term layout placed stands =>
    have assembled := term.assemble_inner (start + before.length) stands.legible.admissible stands.legible.short
    refine read_of_assemble _ (term.alone before) (term.alone_derives text runs _ before layout stands)
      stands.legible.short stands.legible.shallow (fun run member => convertible run (stands.converted member)) ?_
    rw [assemble_termNode, assembled, term.alone_assembly]
  | inner start term stands =>
    have assembled := term.assemble_inner start stands.legible.admissible stands.legible.short
    have written : (term.inner start).text = String.ofList ([] ++ term.text) := by
      cases term <;> rfl
    have derives := term.alone_derives text runs start [] layout_nil stands
    rw [← written] at derives
    refine read_of_assemble _ (term.alone []) derives stands.legible.short stands.legible.shallow
      (fun run member => convertible run (stands.converted member)) ?_
    rw [assembled, term.alone_assembly]
  | piece node piece =>
    have others : ∀ rule ∈ pieceRules, rule ∉ [Rule.operation, .term, .function, .diceRoll, .number] := by
      decide
    exact absurd value (others node.rule piece.rule_mem)

theorem Stem.readTree_alone (text : List Char) (runs : List (List Char)) (node : Node)
    (stem : Stem text runs node) (whole : node.rule = .expression) :
    ∃ own, readTree node.text = .ok own ∧ own.moved node.start = node := by
  cases stem with
  | expression start chain after stands =>
    exact ⟨chain.node 0 after, chain.readTree_extent text runs start after stands,
      chain.node_moved start 0 start after (Nat.zero_add start)⟩
  | operation start chain after stands => cases whole
  | term start before term layout placed stands => cases whole
  | inner start term stands => cases term <;> cases whole
  | piece node piece =>
    have inside := piece.rule_mem
    rw [whole] at inside
    exact absurd inside (by decide)

end Phrase

/-- The text of every expression within the tree of a text is notation, and its tree is that part of the
tree, with positions counted from its own beginning. If the text is read, the text of every operation,
term, call, dice term and number within its tree is read as well, as what that part is assembled to. -/
theorem readTree_local (text : String) (tree : Node) (accepted : readTree text = .ok tree) :
    (∀ node ∈ tree.nodes, node.rule = .expression →
      ∃ own, readTree node.text = .ok own ∧ own.moved node.start = node) ∧
    ((∃ reading, read text = .ok reading) → ∀ node ∈ tree.nodes,
      node.rule ∈ [.operation, .term, .function, .diceRoll, .number] →
        ∃ reading, node.reading = .ok reading ∧ read node.text = .ok reading) := by
  obtain ⟨phrase, derives, short, shallow, rfl⟩ := readTree_sound text tree accepted
  have stems := derives.stem phrase text short shallow
  constructor
  · intro node member whole
    exact (stems node member).readTree_alone _ _ node whole
  · intro found node member value
    have convertible := (read_iff_convertible phrase text derives shallow).mp found
    exact (stems node member).read_alone _ _ node convertible value

/-- An argument keeps the layout behind it, and an operand the layout before it. -/
theorem readTree_local_call :
    let roll : Roll := ⟨1, ⟨6, by decide⟩, .none, none, none⟩
    ∃ tree, readTree "2* f( d6 )" = .ok tree ∧
      (∃ node ∈ tree.nodes, ∃ own, readTree "d6 " = .ok own ∧ own.moved 6 = node) ∧
      read "2* f( d6 )" = .ok ⟨.binary (.number 2) "*" (.call "f" (.dice roll)), [roll]⟩ ∧
      ∃ node ∈ tree.nodes, node.text = " f( d6 )" ∧ node.reading = .ok ⟨.call "f" (.dice roll), [roll]⟩ ∧
        read " f( d6 )" = .ok ⟨.call "f" (.dice roll), [roll]⟩ := by
  intro roll
  let dice : Phrase.Dice := ⟨[], .digits ['6'], []⟩
  let call : Phrase.Term := .call ['f'] [] [' '] (.last (.dice dice)) [' ']
  let phrase : Phrase := ⟨[], .link (.number false ['2']) ⟨[], .times, [' ']⟩ (.last call), []⟩
  have two := Phrase.digits_replicate 1 '2' (by decide)
  have isName : Phrase.IsName ['f'] :=
    ⟨⟨'f', [], rfl, by decide, by simp⟩, fun rest same => absurd (List.cons.inj same).1 (by decide)⟩
  have admissible := Phrase.Dice.sixSided_admissible [] Phrase.digits_nil
  have derives : phrase.Derives "2* f( d6 )" :=
    ⟨rfl, Phrase.layout_nil, ⟨⟨by decide, two⟩, ⟨Phrase.layout_nil, Phrase.layout_blank⟩,
      isName, Phrase.layout_nil, Phrase.layout_blank, admissible, Phrase.layout_blank⟩, Phrase.layout_nil⟩
  have accepted := readTree_complete phrase _ derives (by decide) (by decide)
  have whole : read "2* f( d6 )" = .ok ⟨.binary (.number 2) "*" (.call "f" (.dice roll)), [roll]⟩ := by
    decide +kernel
  have part : read " f( d6 )" = .ok ⟨.call "f" (.dice roll), [roll]⟩ := by
    decide +kernel
  have argument : (Phrase.Chain.last (.dice dice)).node 6 [' '] ∈ phrase.node.nodes :=
    List.mem_of_getElem? (i := 8) rfl
  have operand : Phrase.termNode 2 [' '] call.text (call.inner 3) ∈ phrase.node.nodes :=
    List.mem_of_getElem? (i := 5) rfl
  obtain ⟨expressions, values⟩ := readTree_local _ _ accepted
  obtain ⟨reading, assembled, found⟩ := values ⟨_, whole⟩ _ operand (by decide)
  obtain rfl : _ = reading := Except.ok.inj (part.symm.trans found)
  exact ⟨phrase.node, accepted, ⟨_, argument, expressions _ argument rfl⟩, whole, _, operand, rfl, assembled,
    part⟩

end Tabletop
