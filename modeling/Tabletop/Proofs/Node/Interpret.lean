import Tabletop.Node.Interpret
import Tabletop.Proofs.Node.Assemble

/-! Interpreting a tree goes wrong only as building it does. Every part is looked for before it is taken and
every text is checked before it is converted, so nothing that is taken is missing, however the tree was made. -/
namespace Tabletop

theorem mapError_bind {ε δ α β : Type} (f : ε → δ) (first : Except ε α) (second : α → Except ε β) :
    (first >>= second).mapError f = first.mapError f >>= fun a => (second a).mapError f := by
  cases first <;> rfl

namespace Node

theorem unsignedText_digits (run : List Char) (digits : Phrase.Digits run) :
    Part.unsignedText run = run := by
  have spaceless : ∀ c ∈ run, Text.isSpace c = false := fun c member =>
    Text.isSpace_of_isDigit c (digits c member)
  rw [Part.unsignedText, Text.trim_of_avoids _ _ spaceless]
  split
  · exact absurd (digits '-' (by simp)) (by decide)
  · exact absurd (digits '+' (by simp)) (by decide)
  · rfl

theorem integer_digits (text : String) (some : text.toList ≠ []) (digits : Phrase.Digits text.toList) :
    Part.integer text = match Numeral.overlong? text.toList with
      | none => .ok (Numeral.value text.toList : Int)
      | .some length => .error (.failure (.overlong length)) := by
  have read : Numeral.readSigned text.toList = _ := Numeral.readSigned_digits false text.toList some digits
  rw [Part.integer, read, unsignedText_digits _ digits, Numeral.grouped_digits _ some digits,
    Numeral.overlong?]
  by_cases short : text.toList.length ≤ Numeral.maxDigits
  · rw [if_pos short]
    rfl
  · simp only [if_neg short, List.length_map]

theorem takeUnsigned_eq (node : Node) :
    node.takeUnsigned = (node.unsigned.map fun n => (n : Int)).mapError .failure := by
  rw [takeUnsigned, unsigned]
  by_cases numeral : node.text.toList ≠ [] ∧ node.text.toList.all Char.isDigit
  · rw [if_neg (not_not_intro numeral), if_pos numeral, Numeral.read_eq,
      integer_digits _ numeral.1 (List.all_eq_true.mp numeral.2)]
    cases Numeral.overlong? node.text.toList <;> rfl
  · rw [if_pos numeral, if_neg numeral]
    rfl

theorem takeCount_eq (node : Node) : node.takeCount = (node.count.map fun n => (n : Int)).mapError .failure := by
  rw [takeCount, count]
  cases node.find? .count with
  | none => rfl
  | some count => exact count.takeUnsigned_eq

theorem policies_lookup (key : String) : policies.lookup key = policy? key := by
  unfold policy?
  split
  case h_7 k kh kl d dh dl =>
    rw [List.lookup_eq_none_iff]
    simpa [policies] using ⟨k, kh, kl, d, dh, dl⟩
  all_goals rfl

theorem takeExplosion_known (draft : Roll.Draft) (modifier : Node) (mark : Roll.Explosion)
    (explodes : modifier.rule = .exploding) (known : explosions.lookup modifier.text = some mark) :
    takeModifier draft modifier =
      .ok (if draft.explosion = .indefinite ∧ modifier.text = "!" then draft
        else { draft with explosion := mark }) := by
  have entry : Part.entry explosions modifier.text = .ok mark := by rw [Part.entry, known]
  rw [takeModifier, if_pos explodes, known, entry]
  by_cases kept : draft.explosion = .indefinite ∧ modifier.text = "!"
  · simp only [if_pos kept]
    rfl
  · simp only [if_neg kept]
    rfl

theorem takeExplosion_eq (draft : Roll.Draft) (modifier : Node) (explodes : modifier.rule = .exploding) :
    takeModifier draft modifier = ((modifier.explosion draft.explosion).map fun found =>
      { draft with explosion := found }).mapError .failure := by
  rw [explosion]
  split
  · rename_i single
    rw [takeExplosion_known draft modifier .once explodes (by rw [single]; rfl)]
    by_cases double : draft.explosion = .indefinite
    · rw [if_pos ⟨double, single⟩, if_pos double]
      exact congrArg (fun found => Except.ok { draft with explosion := found }) double
    · rw [if_neg (double ·.1), if_neg double]
      rfl
  · rename_i double
    have other : modifier.text ≠ "!" := by simp [double]
    rw [takeExplosion_known draft modifier .indefinite explodes (by rw [double]; rfl), if_neg (other ·.2)]
    rfl
  · rename_i single double
    have unknown : explosions.lookup modifier.text = none := by
      rw [List.lookup_eq_none_iff]
      simpa [explosions] using ⟨single, double⟩
    rw [takeModifier, if_pos explodes, unknown]
    rfl

theorem takeSelection_eq (draft : Roll.Draft) (modifier : Node)
    (selects : modifier.rule = .keep ∨ modifier.rule = .drop) :
    takeModifier draft modifier =
      (modifier.selection.map fun found => { draft with selection := some found }).mapError .failure := by
  have other : modifier.rule ≠ .exploding := by
    rcases selects with rule | rule <;> simp [rule]
  rw [takeModifier, if_neg other, if_pos selects, takeSelector, selection, takeCount_eq]
  cases modifier.find? .selector with
  | none => rfl
  | some selector =>
    have named := policies_lookup selector.text
    simp only [Option.isNone_some, Bool.false_eq_true, if_false, Part.present, Part.entry, named, bind, Except.bind,
      pure, Except.pure]
    cases policy? selector.text with
    | none => rfl
    | some policy => cases modifier.count <;> rfl

theorem takeModifier_eq (draft : Roll.Draft) (modifier : Node) :
    takeModifier draft modifier = (modify draft modifier).mapError .failure := by
  unfold modify
  split
  · rename_i rule
    exact takeExplosion_eq draft modifier rule
  · rename_i rule
    exact takeSelection_eq draft modifier (.inl rule)
  · rename_i rule
    exact takeSelection_eq draft modifier (.inr rule)
  · rename_i rule
    rw [takeModifier, if_neg (by simp [rule]), if_neg (by simp [rule]), if_pos rule, takeCount_eq]
    cases modifier.count <;> rfl
  · rename_i exploding keep drop reroll
    rw [takeModifier, if_neg exploding, if_neg (not_or.mpr ⟨keep, drop⟩), if_neg reroll]
    rfl

theorem foldlM_takeModifier (modifiers : List Node) (draft : Roll.Draft) :
    modifiers.foldlM takeModifier draft = (modifiers.foldlM modify draft).mapError .failure := by
  induction modifiers generalizing draft with
  | nil => rfl
  | cons modifier rest ih =>
    rw [List.foldlM_cons, List.foldlM_cons, mapError_bind, takeModifier_eq]
    congr
    funext changed
    exact ih changed

theorem takeDiceCount_eq (children : List Node) :
    takeDiceCount children =
      ((diceCount children).map fun counted => ((counted.1 : Int), counted.2)).mapError .failure := by
  cases children with
  | nil => rfl
  | cons first rest =>
    by_cases counts : first.rule = .diceNumber
    · rw [diceCount, if_pos counts]
      have taken : takeDiceCount (first :: rest) = first.takeUnsigned.map fun count => (count, rest) :=
        if_pos counts
      rw [taken, takeUnsigned_eq]
      cases first.unsigned <;> rfl
    · rw [diceCount, if_neg counts]
      exact if_neg counts

theorem takeDieSize_eq (size : Node) :
    size.takeDieSize = (size.dieSize.map fun n => (n : Int)).mapError .failure := by
  rw [takeDieSize, dieSize]
  by_cases percent : size.text = "%"
  · rw [if_pos percent, if_pos percent]
    rfl
  · rw [if_neg percent, if_neg percent, takeUnsigned_eq]
    cases size.unsigned with
    | error failure => rfl
    | ok n => cases n <;> rfl

theorem takeSize_cons (node size : Node) (modifiers : List Node) :
    node.takeSize (size :: modifiers) = if size.rule = .dieSize then .ok (size, modifiers)
      else .error (.failure (node.violation .dieSizeMissing)) := by
  by_cases sized : size.rule = .dieSize
  · rw [if_pos sized]
    exact if_neg (not_not_intro sized)
  · rw [if_neg sized]
    exact if_pos sized

theorem takeDraft_eq (node : Node) : node.takeDraft = node.rollDraft.mapError .failure := by
  rw [takeDraft, rollDraft, takeDiceCount_eq]
  cases diceCount node.children with
  | error failure => rfl
  | ok counted =>
    obtain ⟨count, parts⟩ := counted
    cases parts with
    | nil => rfl
    | cons size modifiers =>
      change (node.takeSize (size :: modifiers) >>= _) = Except.mapError _ (if _ then _ else _)
      rw [takeSize_cons]
      by_cases sized : size.rule = .dieSize
      · rw [if_pos sized, if_pos sized, mapError_bind]
        change (size.takeDieSize >>= _) = _
        rw [takeDieSize_eq]
        cases size.dieSize with
        | error failure => rfl
        | ok sides => exact foldlM_takeModifier modifiers _
      · rw [if_neg sized, if_neg sized]
        rfl

theorem takeRoll_eq (node : Node) : node.takeRoll = node.roll.mapError .failure := by
  rw [takeRoll, roll, takeDraft_eq]
  cases node.rollDraft with
  | error failure => rfl
  | ok draft =>
    simp only [Except.mapError, bind, Except.bind]
    cases draft.check <;> rfl

end Node

namespace Building

variable {α β : Type}

theorem adapt_bind (first : Building α) (second : α → Building β) :
    (first >>= second).adapt Mishap.failure =
      first.adapt Mishap.failure >>= fun a => (second a).adapt Mishap.failure := by
  funext rolls
  change ((ExceptT.bindCont second (first rolls).1 (first rolls).2).1.mapError Mishap.failure,
      (ExceptT.bindCont second (first rolls).1 (first rolls).2).2) =
    ExceptT.bindCont (fun a => (second a).adapt Mishap.failure) ((first rolls).1.mapError Mishap.failure)
      (first rolls).2
  obtain ⟨outcome, left⟩ := first rolls
  cases outcome <;> rfl

end Building

namespace Node

def InterpretedAsBuilt (nodes : List Node) : Prop :=
  ∀ child ∈ nodes, child.interpret = child.build.adapt Mishap.failure

theorem alternate_cons {α : Type} (first : α) (rest : List α) :
    alternate (first :: rest) = first :: alternate (rest.drop 1) := by
  cases rest <;> rfl

theorem joined_eq (left : Expr) (operator : Node) (operand : Building Expr) :
    joined left operator (operand.adapt Mishap.failure) =
      (if operator.rule = .operator then (.binary left operator.text · ) <$> operand
        else throw (operator.violation .operator) : Building Expr).adapt Mishap.failure := by
  rw [joined]
  by_cases known : operator.rule = .operator
  · rw [if_neg (not_not_intro known), if_pos known, ← bind_pure_comp, Building.adapt_bind]
    rfl
  · rw [if_pos known, if_neg known]
    rfl

theorem foldlM_joined (left : Expr) (nodes : List Node) (even : nodes.length % 2 = 0)
    (inside : InterpretedAsBuilt nodes) :
    ((alternate nodes).zip (alternate (nodes.drop 1))).foldlM
        (fun left link => joined left link.1 link.2.interpret) left =
      (buildLinks left nodes).adapt Mishap.failure := by
  match nodes with
  | [] => rfl
  | [operator] => cases even
  | operator :: operand :: links =>
    -- Both lists of every other node lose their first one, so the rest is paired as it was.
    have shorter : links.length % 2 = 0 := by
      rw [List.length_cons, List.length_cons] at even
      omega
    have others := fun left => foldlM_joined left links shorter fun child member => inside child (by simp [member])
    rw [alternate_cons operator, List.drop_one, List.tail_cons, List.drop_one, List.tail_cons,
      alternate_cons operand, List.zip_cons_cons, List.foldlM_cons, buildLinks]
    simp only [others, inside operand (by simp), joined_eq]
    by_cases known : operator.rule = .operator
    · rw [if_pos known, if_pos known, ← bind_pure_comp, Building.adapt_bind, bind_assoc, Building.adapt_bind]
      rfl
    · rw [if_neg known, if_neg known]
      rfl

theorem onlyChild_interpret (node : Node) (inside : InterpretedAsBuilt node.children) :
    (do let child ← (node.onlyChild : Except Mishap _); child.val.interpret : Interpreting Expr) =
      (buildOnly (node.violation (.oneChild node.children.length)) node.children).adapt Mishap.failure := by
  obtain ⟨rule, text, start, stop, children⟩ := node
  match children with
  | [] => rfl
  | [child] => exact inside child (List.mem_singleton_self child)
  | first :: second :: rest =>
    have several : (first :: second :: rest).length ≠ 1 := by simp
    rw [onlyChild, if_pos several]
    rfl

theorem operation_interpret (node : Node) (inside : InterpretedAsBuilt node.children) :
    (do
      if node.children.length % 2 ≠ 1 then (node.refuse .alternation : Except Mishap Unit)
      let first ← (Part.item node.children 0 : Except Mishap _)
      let left ← first.val.interpret
      (links node.children).attach.foldlM
        (fun left link => joined left link.val.1 link.val.2.interpret) left : Interpreting Expr) =
      (buildOperation (node.violation .alternation) node.children).adapt Mishap.failure := by
  obtain ⟨rule, text, start, stop, children⟩ := node
  match children with
  | [] => rfl
  | first :: rest =>
    have paired : links (first :: rest) = (alternate rest).zip (alternate (rest.drop 1)) := by
      rw [links, List.drop_one, List.tail_cons, List.drop_succ_cons]
    have attached (left : Expr) : (links (first :: rest)).attach.foldlM
        (fun left link => joined left link.val.1 link.val.2.interpret) left =
        (links (first :: rest)).foldlM (fun left link => joined left link.1 link.2.interpret) left := by
      rw [List.foldlM_subtype (g := fun left link => joined left link.1 link.2.interpret) fun _ _ _ => rfl,
        List.unattach_attach]
    rw [buildOperation]
    by_cases even : rest.length % 2 = 0
    · have odd : ¬ (first :: rest).length % 2 ≠ 1 := by
        rw [List.length_cons]
        omega
      rw [if_pos even]
      simp only [if_neg odd, attached, paired]
      have left := inside first List.mem_cons_self
      have operands := fun left => foldlM_joined left rest even fun child member =>
        inside child (List.mem_cons_of_mem _ member)
      rw [Building.adapt_bind, ← left]
      simp only [← operands]
      rfl
    · have odd : (first :: rest).length % 2 ≠ 1 := by
        rw [List.length_cons]
        omega
      rw [if_neg even]
      simp only [if_pos odd]
      rfl

theorem buildArgument?_eq (nodes : List Node) :
    buildArgument? nodes = (nodes.find? fun child => child.rule = .expression).map build := by
  induction nodes with
  | nil => rfl
  | cons child rest ih =>
    rw [buildArgument?, ih, List.find?_cons]
    by_cases whole : child.rule = .expression
    · simp [whole]
    · simp [whole]

theorem function_interpret (node : Node) (inside : InterpretedAsBuilt node.children) :
    (do
      if (node.find? .identifier).isNone ∨ (node.find? .expression).isNone then
        (node.refuse .function : Except Mishap Unit)
      let name ← (Part.present (node.find? .identifier) : Except Mishap _)
      let argument ← (Part.present (node.find? .expression) : Except Mishap _)
      return .call name.val.text (← argument.val.interpret) : Interpreting Expr) =
      (match node.find? .identifier, buildArgument? node.children with
      | some name, some argument => do return .call name.text (← argument)
      | _, _ => throw (node.violation .function) : Building Expr).adapt Mishap.failure := by
  rw [buildArgument?_eq, ← find?]
  cases node.find? .identifier with
  | none => rfl
  | some name =>
    cases found : node.find? .expression with
    | none => rfl
    | some argument =>
      change (argument.interpret >>= fun value => return .call name.text value) =
        (argument.build >>= fun value => return .call name.text value : Building Expr).adapt Mishap.failure
      rw [Building.adapt_bind, inside argument (List.mem_of_find?_eq_some found)]
      rfl

theorem number_interpret (node : Node) :
    (match Part.integer node.text with
      | .ok value => return .number value
      | .error _ => (node.refuse .signed : Except Mishap Expr) : Interpreting Expr) =
      (do return .number (← (node.signed : Except Failure Int)) : Building Expr).adapt Mishap.failure := by
  rw [signed]
  cases read : Numeral.readSigned node.text.toList with
  | some n =>
    have converted : Part.integer node.text = .ok n := by rw [Part.integer, read]
    rw [converted]
    rfl
  | none =>
    obtain ⟨mishap, refused⟩ : ∃ mishap, Part.integer node.text = .error mishap := by
      rw [Part.integer, read]
      dsimp only
      split <;> exact ⟨_, rfl⟩
    rw [refused]
    rfl

mutual
/-- A tree is interpreted as it is built. -/
theorem interpret_eq (node : Node) : node.interpret = node.build.adapt Mishap.failure := by
  match node with
  | ⟨rule, text, start, stop, children⟩ =>
    have inside := forall_interpret_eq children
    unfold interpret build
    cases rule with
    | expression => exact onlyChild_interpret ⟨.expression, text, start, stop, children⟩ inside
    | term => exact onlyChild_interpret ⟨.term, text, start, stop, children⟩ inside
    | operation => exact operation_interpret ⟨.operation, text, start, stop, children⟩ inside
    | function => exact function_interpret ⟨.function, text, start, stop, children⟩ inside
    | diceRoll =>
      dsimp only
      rw [takeRoll_eq, buildRoll]
      cases Node.roll ⟨.diceRoll, text, start, stop, children⟩ <;> rfl
    | number => exact number_interpret ⟨.number, text, start, stop, children⟩
    | _ => rfl
theorem forall_interpret_eq (nodes : List Node) : InterpretedAsBuilt nodes := by
  match nodes with
  | [] => exact fun child member => nomatch member
  | first :: rest => exact List.forall_mem_cons.mpr ⟨first.interpret_eq, forall_interpret_eq rest⟩
end

/-- Interpreting ends with the list that building leaves, and goes wrong only by a failure of the building. -/
theorem interpretOnto_eq (rolls : List Roll) (node : Node) :
    node.interpretOnto rolls =
      ((node.buildOnto rolls).1.mapError Mishap.failure, (node.buildOnto rolls).2) := by
  rw [interpretOnto, interpret_eq]
  rfl

end Node

end Tabletop
