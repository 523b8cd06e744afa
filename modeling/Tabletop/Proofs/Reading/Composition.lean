import Tabletop.Proofs.Expr.Spine
import Tabletop.Proofs.Phrase.Conversions
import Tabletop.Proofs.Reading.Normal

/-! Texts made from texts. Two texts that are read are read with an operator between them, and the links of
the second one are chained behind the first one, so no operator binds more tightly than another. A text
that is read is read between the parentheses of a name, as long as the name can be told from a dice term
and the calls within do not stand too deep already. -/
namespace Tabletop

namespace Phrase
open Text (Ends)

theorem Chain.first_term (chain : Chain) (after : List Char) (admissible : chain.Admissible)
    (layout : Layout after) :
    ∃ (term : Term) (rest : List Char), chain.text ++ after = term.text ++ rest ∧ term.Admissible ∧
      Seam rest := by
  have ends : Seam after := by
    have closed := closed_layout after [] layout (.inl rfl)
    rw [List.append_nil] at closed
    exact closed.seam
  cases chain with
  | last term => exact ⟨term, after, rfl, admissible, ends⟩
  | link term joint rest =>
    refine ⟨term, joint.text ++ (rest.text ++ after), ?_, admissible.1, seam_joint joint _ admissible.2.1⟩
    simp [Chain.text]

theorem plain_before_opening (text rest name inner : List Char) (plain : Plain text)
    (seam : Seam rest) (parts : ∀ c ∈ name, isNamePart c = true)
    (same : text ++ rest = name ++ '(' :: inner) : False := by
  rcases List.append_eq_append_iff.mp same with ⟨more, rfl, rfl⟩ | ⟨more, rfl, split⟩
  · -- The seam would be a part of the name, or the parenthesis itself.
    have ends := seam.ends (fun c => isNamePart c || c == '(') _ (by decide)
    cases more with
    | nil => exact absurd ((Text.ends_cons _ _ _).mp ends) (by decide)
    | cons c more =>
      have part := parts c (by simp)
      rw [List.cons_append, Text.ends_cons, part] at ends
      cases ends
  · cases more with
    | nil =>
      rw [List.nil_append] at split
      subst split
      exact absurd (seam '(' rfl) (by decide)
    | cons c more =>
      rw [List.cons_append, List.cons.injEq] at split
      obtain ⟨rfl, _⟩ := split
      exact absurd rfl (plain '(' (by simp)).1

/-- An identifier before a parenthesis is the name of a call or the text has no derivation. -/
theorem Derives.isName (phrase : Phrase) (text : String) (derives : phrase.Derives text)
    (name inner : List Char) (written : text.toList = name ++ '(' :: inner)
    (identifier : IsIdentifier name) : IsName name := by
  have parts := identifier.parts
  have begins : Ends Text.isLayout text.toList := by
    obtain ⟨c, rest, rfl, start, _⟩ := identifier
    rw [written, List.cons_append, Text.ends_cons]
    by_contra layout
    rw [Bool.not_eq_false] at layout
    rw [isLayout_cases isNameStart (by decide) c layout] at start
    cases start
  have whole := derives.dropWhile_text phrase text
  rw [Text.dropWhile_of_ends _ _ begins, written] at whole
  obtain ⟨term, rest, first, admissible, seam⟩ :=
    phrase.chain.first_term phrase.after derives.chain derives.after
  rw [first] at whole
  match term with
  | .dice dice =>
    exact (plain_before_opening _ rest name inner (plain_dice dice admissible) seam parts whole.symm).elim
  | .number negative digits =>
    exact (plain_before_opening _ rest name inner (plain_number negative digits admissible.2) seam parts
      whole.symm).elim
  | .call other beforeOpening afterOpening argument beforeClosing =>
    obtain ⟨isName, before, _⟩ := admissible
    have opens : ∀ more : List Char, Ends isNamePart ('(' :: more) := fun more =>
      (Text.ends_cons _ _ _).mpr (by decide)
    rw [Term.call_append] at whole
    have taken := congrArg (List.takeWhile isNamePart) whole
    rw [Text.takeWhile_run _ _ _ parts (opens inner),
      Text.takeWhile_run _ _ _ (isName.parts)
        (ends_layout _ _ _ before (by decide) (opens _))] at taken
    rw [taken]
    exact isName

def joined (first : Phrase) (operator : Operator) (second : Phrase) : Phrase where
  before := first.before
  chain := first.chain.join ⟨first.after, operator, second.before⟩ second.chain
  after := second.after

def called (name : List Char) (phrase : Phrase) : Phrase where
  before := []
  chain := .last (.call name [] phrase.before phrase.chain phrase.after)
  after := []

theorem joined_derives (first second : Phrase) (operator : Operator) (text text' : String)
    (derives : first.Derives text) (derives' : second.Derives text') :
    (first.joined operator second).Derives (text ++ String.ofList [operator.char] ++ text') := by
  refine ⟨?_, derives.before, ?_, derives'.after⟩
  · rw [String.toList_append, String.toList_append, ← derives.written, ← derives'.written,
      String.toList_ofList]
    simp [joined, Phrase.text, Chain.join_text, Joint.text]
  · exact first.chain.join_admissible _ second.chain derives.chain ⟨derives.after, derives'.before⟩
      derives'.chain

theorem called_derives (name : List Char) (phrase : Phrase) (text : String) (isName : IsName name)
    (derives : phrase.Derives text) :
    (phrase.called name).Derives (String.ofList name ++ "(" ++ text ++ ")") := by
  refine ⟨?_, layout_nil, ⟨isName, layout_nil, derives.before, derives.chain, derives.after⟩, layout_nil⟩
  simp [called, Phrase.text, Chain.text, Term.text, ← derives.written]

theorem nameOverlong?_of_short (name : List Char)
    (short : ∀ run, run <:+: name → Digits run → run.length ≤ Numeral.maxDigits) :
    nameOverlong? name = none := by
  rw [nameOverlong?_eq_none]
  intro run converted
  obtain ⟨digits, within⟩ := nameConversions_text name run converted
  exact short run within digits

end Phrase

theorem read_joined (text text' operator : String) (reading reading' : Reading)
    (found : read text = .ok reading) (found' : read text' = .ok reading')
    (known : operator ∈ ["+", "-", "*", "/"]) :
    read (text ++ operator ++ text') =
      .ok ⟨reading'.expression.onto (.binary reading.expression operator),
        reading.rolls ++ reading'.rolls⟩ := by
  obtain ⟨first, derives, short, shallow, assembled⟩ := read_sound text reading found
  obtain ⟨second, derives', short', shallow', assembled'⟩ := read_sound text' reading' found'
  have spelled : String.ofList [(Phrase.Operator.ofText operator).char] = operator := by
    rw [Phrase.Operator.ofText_char operator known, String.ofList_toList]
  have whole := Phrase.joined_derives first second (.ofText operator) text text' derives derives'
  have depth : (first.joined (.ofText operator) second).chain.depth ≤ Nesting.limit := by
    rw [Phrase.joined, Phrase.Chain.join_depth]
    exact Nat.max_le.mpr ⟨shallow, shallow'⟩
  have stopped : (first.joined (.ofText operator) second).chain.overlong? = none := by
    rw [Phrase.joined, Phrase.Chain.join_overlong?, short, short']
    rfl
  have left : first.chain.assemblyOnto id = ⟨reading.rolls, .ok reading.expression⟩ := assembled
  have right := second.chain.assemblyOnto_of_assembly (.binary reading.expression operator) _ _
    derives'.chain short' assembled'
  rw [spelled] at whole
  rw [read_complete _ _ whole depth, stopped]
  simp only [Phrase.joined, Phrase.Chain.assembly, Phrase.Chain.join_assemblyOnto, left, spelled,
    Assembly.ok_andThen, right]
  rfl

theorem read_called (name text : String) (reading : Reading) (found : read text = .ok reading)
    (isName : Phrase.IsName name.toList) (named : Phrase.nameOverlong? name.toList = none)
    (shallow : reading.expression.depth + 1 ≤ Nesting.limit) :
    read (name ++ "(" ++ text ++ ")") = .ok ⟨.call name reading.expression, reading.rolls⟩ := by
  obtain ⟨phrase, derives, short, _, assembled⟩ := read_sound text reading found
  have whole := Phrase.called_derives name.toList phrase text isName derives
  rw [String.ofList_toList] at whole
  have depth : (phrase.called name.toList).chain.depth ≤ Nesting.limit := by
    rw [phrase.chain.depth_of_assembly _ _ assembled] at shallow
    exact shallow
  have stopped : (phrase.called name.toList).chain.overlong? = none := by
    change (Phrase.nameOverlong? name.toList).or phrase.chain.overlong? = none
    rw [named, short]
    rfl
  have inner : phrase.chain.assemblyOnto id = ⟨reading.rolls, .ok reading.expression⟩ := assembled
  rw [read_complete _ _ whole depth, stopped]
  simp only [Phrase.called, Phrase.Chain.assembly, Phrase.Chain.assemblyOnto, Phrase.Term.assembly, inner,
    String.ofList_toList, Assembly.ok_andThen, Assembly.value, List.append_nil]
  rfl

theorem called_of_read (name text : String) (reading other : Reading)
    (identifier : Phrase.IsIdentifier name.toList)
    (short : ∀ run, run <:+: name.toList → Phrase.Digits run → run.length ≤ Numeral.maxDigits)
    (found : read text = .ok reading) (found' : read (name ++ "(" ++ text ++ ")") = .ok other) :
    Phrase.IsName name.toList ∧ reading.expression.depth + 1 ≤ Nesting.limit := by
  obtain ⟨phrase, derives, inner, _, assembled⟩ := read_sound text reading found
  obtain ⟨whole, derives', _, shallow, _⟩ := read_sound _ other found'
  have isName : Phrase.IsName name.toList := by
    apply derives'.isName whole _ name.toList (text.toList ++ [')']) _ identifier
    simp
  have called := Phrase.called_derives name.toList phrase text isName derives
  rw [String.ofList_toList] at called
  have stopped : (phrase.called name.toList).chain.overlong? = none := by
    change (Phrase.nameOverlong? name.toList).or phrase.chain.overlong? = none
    rw [Phrase.nameOverlong?_of_short _ short, inner]
    rfl
  -- The call is the only derivation, so the limit on its depth is the one on the whole text.
  have same := called.eq_of_short _ whole _ derives' stopped
  refine ⟨isName, ?_⟩
  rw [phrase.chain.depth_of_assembly _ _ assembled]
  rw [← same] at shallow
  exact shallow

/-- Two texts that are read are read with an operator between them: the first operand of the second one
is taken up by the operator, and its links follow. A text that is read is read as the argument of an
identifier exactly if its calls stand at most 19 deep and the identifier does not begin with a d and a
run of digits of positive value. -/
theorem read_composed (text : String) (reading : Reading) (found : read text = .ok reading) :
    (∀ (text' operator : String) (reading' : Reading), read text' = .ok reading' →
      operator ∈ ["+", "-", "*", "/"] →
      read (text ++ operator ++ text') =
        .ok ⟨(Expr.Sequence.mk (.binary reading.expression operator reading'.expression.spine.first)
            reading'.expression.spine.links).chained,
          reading.rolls ++ reading'.rolls⟩) ∧
    ∀ name : String, Phrase.IsIdentifier name.toList →
      (∀ run, run <:+: name.toList → Phrase.Digits run → run.length ≤ Numeral.maxDigits) →
      ((∃ other, read (name ++ "(" ++ text ++ ")") = .ok other) ↔
        reading.expression.depth ≤ 19 ∧
          ∀ rest, name.toList = 'd' :: rest → ¬ Phrase.PositiveRun (rest.takeWhile Char.isDigit)) ∧
      ∀ other, read (name ++ "(" ++ text ++ ")") = .ok other →
        other = ⟨.call name reading.expression, reading.rolls⟩ := by
  refine ⟨fun text' operator reading' found' known => ?_, fun name identifier short => ?_⟩
  · exact read_joined text text' operator reading reading' found found' known
  have named := Phrase.nameOverlong?_of_short _ short
  refine ⟨⟨?_, ?_⟩, ?_⟩
  · rintro ⟨other, found'⟩
    obtain ⟨isName, shallow⟩ := called_of_read name text reading other identifier short found found'
    exact ⟨Nat.le_of_succ_le_succ shallow, isName.notDice⟩
  · rintro ⟨shallow, notDice⟩
    exact ⟨_, read_called name text reading found ⟨identifier, notDice⟩ named (Nat.succ_le_succ shallow)⟩
  · intro other found'
    obtain ⟨isName, shallow⟩ := called_of_read name text reading other identifier short found found'
    rw [read_called name text reading found isName named shallow] at found'
    exact (Except.ok.inj found').symm

/-- A product takes up the first operand of a difference, and the letter d with a zero is a name. -/
theorem read_composed_product :
    read "1-d6" = .ok ⟨.binary (.number 1) "-" (.dice ⟨1, ⟨6, by decide⟩, .none, none, none⟩),
      [⟨1, ⟨6, by decide⟩, .none, none, none⟩]⟩ ∧
    read ("1-d6" ++ "*" ++ "2-3") =
      .ok ⟨.binary (.binary (.binary (.number 1) "-" (.dice ⟨1, ⟨6, by decide⟩, .none, none, none⟩)) "*"
        (.number 2)) "-" (.number 3), [⟨1, ⟨6, by decide⟩, .none, none, none⟩]⟩ ∧
    ∃ other, read ("d0" ++ "(" ++ "1-d6" ++ ")") = .ok other := by
  have found : read "1-d6" =
      .ok ⟨.binary (.number 1) "-" (.dice ⟨1, ⟨6, by decide⟩, .none, none, none⟩),
        [⟨1, ⟨6, by decide⟩, .none, none, none⟩]⟩ := by decide +kernel
  have found' : read "2-3" = .ok ⟨.binary (.number 2) "-" (.number 3), []⟩ := by decide +kernel
  have identifier : Phrase.IsIdentifier "d0".toList :=
    ⟨'d', ['0'], rfl, by decide, List.all_eq_true.mp rfl⟩
  have short : ∀ run, run <:+: "d0".toList → Phrase.Digits run → run.length ≤ Numeral.maxDigits := by
    intro run inside _
    exact inside.length_le.trans (by decide)
  have composed := read_composed _ _ found
  refine ⟨found, composed.1 _ "*" _ found' (by decide), (composed.2 "d0" identifier short).1.mpr ⟨?_, ?_⟩⟩
  · decide
  · intro rest same positive
    cases same
    exact absurd positive.2 (by decide)

end Tabletop
