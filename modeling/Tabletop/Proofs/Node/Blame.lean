import Tabletop.Proofs.Node.Interpret
import Tabletop.Proofs.Node.Shared
import Tabletop.Proofs.Node.Stems
import Tabletop.Proofs.Phrase.Roll

/-! Where the failures of building come from. A node that cannot be interpreted is one of the tree. A numeral
that is too long is one of a number of dice, of a size or of a count, and a roll is at fault only for a count
of zero; so a tree without these fails only by naming one of its nodes. -/
namespace Tabletop

theorem Numeral.zeros_of_value (run : List Char) (digits : Phrase.Digits run) (zero : value run = 0) :
    ∀ c ∈ run, c = '0' := by
  induction run with
  | nil => exact fun c member => nomatch member
  | cons c rest ih =>
    have bounds : 0x30 ≤ c.toNat ∧ c.toNat ≤ 0x39 := Char.isDigit_iff_toNat.mp (digits c (by simp))
    rw [value, Nat.ofDigitChars_cons, Nat.ofDigitChars_eq_ofDigitChars_zero] at zero
    have first : 10 * 0 + (c.toNat - '0'.toNat) = 0 := by
      by_contra some
      have scale : 0 < 10 ^ rest.length * (10 * 0 + (c.toNat - '0'.toNat)) :=
        Nat.mul_pos (Nat.pow_pos (by decide)) (Nat.pos_of_ne_zero some)
      omega
    have same : c.toNat = '0'.toNat := by
      have code : '0'.toNat = 48 := rfl
      omega
    have others := ih (fun d member => digits d (by simp [member])) (by unfold value; omega)
    exact List.forall_mem_cons.mpr ⟨Char.toNat_inj.mp same, others⟩

namespace Node

/-- A node whose digits are converted and are too many for it. -/
structure TooLong (node : Node) (digits : Nat) : Prop where
  converted : node.rule ∈ [Rule.diceNumber, .dieSize, .count]
  only : Phrase.Digits node.text.toList
  length : node.text.toList.length = digits
  long : Numeral.maxDigits < digits

structure ZeroCount (node : Node) : Prop where
  counts : node.rule = .count
  some : node.text ≠ ""
  zeros : ∀ c ∈ node.text.toList, c = '0'

end Node

def Failure.ComesFrom (nodes : List Node) : Failure → Prop
  | .rejected _ => False
  | .violated violation => ∃ node ∈ nodes, violation.rule = node.rule ∧ violation.text = node.text
  | .overlong digits => ∃ node ∈ nodes, node.TooLong digits
  | .faulty _ => ∃ node ∈ nodes, node.ZeroCount

theorem Failure.ComesFrom.mono (nodes others : List Node) (failure : Failure) (inside : nodes ⊆ others)
    (comes : failure.ComesFrom nodes) : failure.ComesFrom others := by
  cases failure with
  | rejected rejection => exact comes
  | violated violation =>
    obtain ⟨node, member, named⟩ := comes
    exact ⟨node, inside member, named⟩
  | overlong digits =>
    obtain ⟨node, member, long⟩ := comes
    exact ⟨node, inside member, long⟩
  | faulty fault =>
    obtain ⟨node, member, zero⟩ := comes
    exact ⟨node, inside member, zero⟩

def Visit.node : Visit → Node
  | .value node => node
  | .operator node => node

namespace Node

theorem mem_nodes (node : Node) : node ∈ node.nodes := by
  rw [nodes_eq]
  exact List.mem_cons_self

theorem nodes_subset_nodesAmong (nodes : List Node) (child : Node) (member : child ∈ nodes) :
    child.nodes ⊆ nodesAmong nodes := by
  induction nodes with
  | nil => cases member
  | cons first rest ih =>
    rw [nodesAmong]
    rcases List.mem_cons.mp member with rfl | inside
    · exact List.subset_append_left _ _
    · exact List.Subset.trans (ih inside) (List.subset_append_right _ _)

theorem nodes_child (node child : Node) (member : child ∈ node.children) : child.nodes ⊆ node.nodes := by
  rw [nodes_eq node]
  exact List.Subset.trans (nodes_subset_nodesAmong _ child member) (List.subset_cons_self _ _)

theorem violation_comes (node : Node) (reason : Reason) : (node.violation reason).ComesFrom node.nodes :=
  ⟨node, node.mem_nodes, rfl, rfl⟩

theorem unsigned_comes (node : Node) (failure : Failure)
    (converted : node.rule ∈ [Rule.diceNumber, .dieSize, .count]) (failed : node.unsigned = .error failure) :
    failure.ComesFrom node.nodes := by
  rw [unsigned] at failed
  split at failed
  · rename_i numeral
    rw [Numeral.read] at failed
    split at failed
    · cases failed
    · rename_i length stopped
      cases failed
      split at stopped
      · cases stopped
      · rename_i long
        cases stopped
        exact ⟨node, node.mem_nodes, converted, List.all_eq_true.mp numeral.2, rfl, Nat.lt_of_not_le long⟩
  · cases failed
    exact node.violation_comes .unsigned

theorem unsigned_zero (node : Node) (zero : node.unsigned = .ok 0) :
    node.text ≠ "" ∧ ∀ c ∈ node.text.toList, c = '0' := by
  rw [unsigned] at zero
  split at zero
  · rename_i numeral
    split at zero
    · rename_i n read
      cases zero
      have value := (Numeral.of_read_ok _ _ read).1
      refine ⟨?_, Numeral.zeros_of_value _ (List.all_eq_true.mp numeral.2) value⟩
      intro none
      exact numeral.1 (by rw [none]; rfl)
    · cases zero
  · cases zero

theorem find?_count (modifier count : Node) (found : modifier.find? .count = some count) :
    count.rule = .count ∧ count.nodes ⊆ modifier.nodes :=
  ⟨by simpa using List.find?_some found, modifier.nodes_child count (List.mem_of_find?_eq_some found)⟩

theorem count_comes (modifier : Node) (failure : Failure) (failed : modifier.count = .error failure) :
    failure.ComesFrom modifier.nodes := by
  rw [count] at failed
  split at failed
  · rename_i count found
    obtain ⟨counts, inside⟩ := modifier.find?_count count found
    exact (count.unsigned_comes failure (by simp [counts]) failed).mono _ _ _ inside
  · cases failed

theorem counted_comes (modifier : Node) (failure : Failure)
    (failed : (do let n ← modifier.count; return (n : Int)) = .error failure) :
    failure.ComesFrom modifier.nodes := by
  rcases Phrase.bind_error _ _ _ failed with stopped | ⟨n, _, impossible⟩
  · exact modifier.count_comes failure stopped
  · cases impossible

theorem count_pos (modifier : Node) (n : Nat) (ok : modifier.count = .ok n) :
    0 < n ∨ ∃ node ∈ modifier.nodes, node.ZeroCount := by
  rw [count] at ok
  split at ok
  · rename_i count found
    obtain ⟨counts, inside⟩ := modifier.find?_count count found
    rcases Nat.eq_zero_or_pos n with rfl | positive
    · obtain ⟨some, zeros⟩ := count.unsigned_zero ok
      exact .inr ⟨count, inside count.mem_nodes, counts, some, zeros⟩
    · exact .inl positive
  · cases ok
    exact .inl Nat.one_pos

theorem selection_comes (modifier : Node) (failure : Failure) (failed : modifier.selection = .error failure) :
    failure.ComesFrom modifier.nodes := by
  rw [selection] at failed
  split at failed
  · cases failed
    exact modifier.violation_comes .selectorMissing
  · split at failed
    · cases failed
      exact modifier.violation_comes .selectorUnknown
    · exact modifier.counted_comes failure (Phrase.map_error _ _ _ failed)

theorem explosion_comes (modifier : Node) (before : Roll.Explosion) (failure : Failure)
    (failed : modifier.explosion before = .error failure) : failure.ComesFrom modifier.nodes := by
  rw [explosion] at failed
  split at failed
  · cases failed
  · cases failed
  · cases failed
    exact modifier.violation_comes .explosion

theorem modify_comes (modifier : Node) (draft : Roll.Draft) (failure : Failure)
    (failed : modify draft modifier = .error failure) : failure.ComesFrom modifier.nodes := by
  rw [modify] at failed
  split at failed
  · exact modifier.explosion_comes _ failure (Phrase.map_error _ _ _ failed)
  · exact modifier.selection_comes failure (Phrase.map_error _ _ _ failed)
  · exact modifier.selection_comes failure (Phrase.map_error _ _ _ failed)
  · exact modifier.counted_comes failure (Phrase.map_error _ _ _ failed)
  · cases failed
    exact modifier.violation_comes .modifier

theorem modify_ok (modifier : Node) (draft drafted : Roll.Draft) (ok : modify draft modifier = .ok drafted) :
    (∃ explosion, drafted = { draft with explosion := explosion }) ∨
      ∃ n : Nat, modifier.count = .ok n ∧ ((∃ policy, drafted = { draft with selection := some (policy, (n : Int)) }) ∨
        drafted = { draft with reroll := some (n : Int) }) := by
  have selected (selects : (modifier.selection.map fun found => { draft with selection := some found }) =
      .ok drafted) : ∃ n : Nat, modifier.count = .ok n ∧
        ∃ policy, drafted = { draft with selection := some (policy, (n : Int)) } := by
    obtain ⟨found, chosen, rfl⟩ := Phrase.map_ok _ _ _ selects
    rw [selection] at chosen
    split at chosen
    · cases chosen
    · split at chosen
      · cases chosen
      · obtain ⟨given, counted, rfl⟩ := Phrase.map_ok _ _ _ chosen
        obtain ⟨n, count, same⟩ := Phrase.bind_ok _ _ _ counted
        cases same
        exact ⟨n, count, _, rfl⟩
  rw [modify] at ok
  split at ok
  · obtain ⟨found, _, rfl⟩ := Phrase.map_ok _ _ _ ok
    exact .inl ⟨found, rfl⟩
  · obtain ⟨n, count, changed⟩ := selected ok
    exact .inr ⟨n, count, .inl changed⟩
  · obtain ⟨n, count, changed⟩ := selected ok
    exact .inr ⟨n, count, .inl changed⟩
  · obtain ⟨given, counted, rfl⟩ := Phrase.map_ok _ _ _ ok
    obtain ⟨n, count, same⟩ := Phrase.bind_ok _ _ _ counted
    cases same
    exact .inr ⟨n, count, .inr rfl⟩
  · cases ok

theorem modify_every (p : Int → Prop) (modifier : Node) (draft drafted : Roll.Draft)
    (counted : ∀ n : Nat, modifier.count = .ok n → p n) (every : draft.Every p)
    (ok : modify draft modifier = .ok drafted) : drafted.Every p ∧ drafted.count = draft.count := by
  rcases modifier.modify_ok draft drafted ok with ⟨explosion, rfl⟩ | ⟨n, count, ⟨policy, rfl⟩ | rfl⟩
  · exact ⟨⟨every.size, every.selection, every.reroll⟩, rfl⟩
  · refine ⟨⟨every.size, ?_, every.reroll⟩, rfl⟩
    intro selection member
    cases member
    exact counted n count
  · refine ⟨⟨every.size, every.selection, ?_⟩, rfl⟩
    intro threshold member
    cases member
    exact counted n count

theorem foldlM_modify_comes (nodes modifiers : List Node) (draft : Roll.Draft) (failure : Failure)
    (inside : ∀ modifier ∈ modifiers, modifier.nodes ⊆ nodes)
    (failed : modifiers.foldlM modify draft = .error failure) : failure.ComesFrom nodes := by
  induction modifiers generalizing draft with
  | nil => cases failed
  | cons modifier rest ih =>
    obtain ⟨first, others⟩ := List.forall_mem_cons.mp inside
    rw [List.foldlM_cons] at failed
    rcases Phrase.bind_error _ _ _ failed with stopped | ⟨drafted, _, onward⟩
    · exact (modifier.modify_comes draft failure stopped).mono _ _ _ first
    · exact ih drafted others onward

theorem foldlM_modify_every (p : Int → Prop) (modifiers : List Node) (draft drafted : Roll.Draft)
    (counted : ∀ modifier ∈ modifiers, ∀ n : Nat, modifier.count = .ok n → p n) (every : draft.Every p)
    (ok : modifiers.foldlM modify draft = .ok drafted) : drafted.Every p ∧ drafted.count = draft.count := by
  induction modifiers generalizing draft with
  | nil =>
    cases ok
    exact ⟨every, rfl⟩
  | cons modifier rest ih =>
    obtain ⟨first, others⟩ := List.forall_mem_cons.mp counted
    rw [List.foldlM_cons] at ok
    obtain ⟨changed, once, onward⟩ := Phrase.bind_ok _ _ _ ok
    obtain ⟨kept, same⟩ := modify_every p modifier draft changed first every once
    obtain ⟨last, count⟩ := ih changed others kept onward
    exact ⟨last, count.trans same⟩

theorem diceCount_ok (children : List Node) (count : Nat) (parts : List Node)
    (ok : diceCount children = .ok (count, parts)) : ∀ part ∈ parts, part ∈ children := by
  cases children with
  | nil =>
    cases ok
    exact fun part member => member
  | cons first rest =>
    rw [diceCount] at ok
    split at ok
    · obtain ⟨n, _, same⟩ := Phrase.map_ok _ _ _ ok
      cases same
      exact fun part member => List.mem_cons_of_mem _ member
    · cases ok
      exact fun part member => member

theorem diceCount_comes (node : Node) (failure : Failure) (failed : diceCount node.children = .error failure) :
    failure.ComesFrom node.nodes := by
  obtain ⟨rule, text, start, stop, children⟩ := node
  cases children with
  | nil => cases failed
  | cons first rest =>
    rw [diceCount] at failed
    split at failed
    · rename_i counts
      have comes := first.unsigned_comes failure (by simp [counts]) (Phrase.map_error _ _ _ failed)
      exact comes.mono _ _ _ (nodes_child ⟨rule, text, start, stop, first :: rest⟩ first List.mem_cons_self)
    · cases failed

theorem dieSize_comes (size : Node) (failure : Failure) (sized : size.rule = .dieSize)
    (failed : size.dieSize = .error failure) : failure.ComesFrom size.nodes := by
  rw [dieSize] at failed
  split at failed
  · cases failed
  · split at failed
    · cases failed
      exact size.violation_comes .dieSizeZero
    · exact size.unsigned_comes failure (by simp [sized]) failed

theorem dieSize_pos (size : Node) (n : Nat) (ok : size.dieSize = .ok n) : 0 < n := by
  rw [dieSize] at ok
  split at ok
  · cases ok
    decide
  · split at ok
    · cases ok
    · rename_i some
      rcases Nat.eq_zero_or_pos n with rfl | positive
      · exact absurd ok some
      · exact positive

theorem rollDraft_comes (node : Node) (failure : Failure) (failed : node.rollDraft = .error failure) :
    failure.ComesFrom node.nodes := by
  rw [rollDraft] at failed
  rcases Phrase.bind_error _ _ _ failed with stopped | ⟨⟨count, parts⟩, counted, onward⟩
  · exact node.diceCount_comes failure stopped
  · have inside := diceCount_ok node.children count parts counted
    cases parts with
    | nil =>
      cases onward
      exact node.violation_comes .dieSizeMissing
    | cons size modifiers =>
      obtain ⟨first, others⟩ := List.forall_mem_cons.mp inside
      dsimp only at onward
      split at onward
      · rename_i sized
        rcases Phrase.bind_error _ _ _ onward with stopped | ⟨sides, _, folded⟩
        · exact (size.dieSize_comes failure sized stopped).mono _ _ _ (node.nodes_child size first)
        · exact foldlM_modify_comes node.nodes modifiers _ failure
            (fun modifier member => node.nodes_child modifier (others modifier member)) folded
      · cases onward
        exact node.violation_comes .dieSizeMissing

/-- Only a node of zeros leaves a number of a draft that is not positive. -/
theorem rollDraft_every (node : Node) (draft : Roll.Draft) (ok : node.rollDraft = .ok draft) :
    draft.Every (fun n => 0 < n ∨ ∃ other ∈ node.nodes, other.ZeroCount) ∧ 0 ≤ draft.count := by
  rw [rollDraft] at ok
  obtain ⟨⟨count, parts⟩, counted, onward⟩ := Phrase.bind_ok _ _ _ ok
  have inside := diceCount_ok node.children count parts counted
  cases parts with
  | nil => cases onward
  | cons size modifiers =>
    obtain ⟨_, others⟩ := List.forall_mem_cons.mp inside
    dsimp only at onward
    split at onward
    · obtain ⟨sides, sized, folded⟩ := Phrase.bind_ok _ _ _ onward
      have positive : (0 : Int) < sides := Int.natCast_pos.mpr (size.dieSize_pos sides sized)
      have bare : (Roll.Draft.mk count sides .none none none).Every
          fun n => 0 < n ∨ ∃ other ∈ node.nodes, other.ZeroCount := ⟨.inl positive, by simp, by simp⟩
      obtain ⟨every, same⟩ := foldlM_modify_every (fun n => 0 < n ∨ ∃ other ∈ node.nodes, other.ZeroCount)
        modifiers ⟨count, sides, .none, none, none⟩ draft (by
          intro modifier member n ok
          rcases modifier.count_pos n ok with positive | ⟨other, deep, zero⟩
          · exact .inl (Int.natCast_pos.mpr positive)
          · exact .inr ⟨other, node.nodes_child modifier (others modifier member) deep, zero⟩) bare folded
      rw [same]
      exact ⟨every, Int.natCast_nonneg count⟩
    · cases onward

theorem roll_comes (node : Node) (failure : Failure) (failed : node.roll = .error failure) :
    failure.ComesFrom node.nodes := by
  rw [roll] at failed
  rcases Phrase.bind_error _ _ _ failed with stopped | ⟨draft, drafted, checked⟩
  · exact node.rollDraft_comes failure stopped
  · obtain ⟨every, natural⟩ := node.rollDraft_every draft drafted
    split at checked
    · cases checked
    · rename_i fault refused
      cases checked
      -- Without a count of zeros the draft is that of a roll, and that one passes its check.
      by_contra none
      have positive : draft.Every (0 < ·) := ⟨every.size.resolve_right none,
        fun selection member => (every.selection selection member).resolve_right none,
        fun threshold member => (every.reroll threshold member).resolve_right none⟩
      obtain ⟨roll, rfl⟩ := positive.exists_roll draft natural
      rw [roll.check_draft] at refused
      cases refused

mutual
theorem visits_nodes (node : Node) : ∀ visit ∈ node.visits, visit.node.nodes ⊆ node.nodes := by
  match node with
  | ⟨rule, text, start, stop, children⟩ =>
    have within (visits : List Visit) (inside : ∀ visit ∈ visits, visit.node.nodes ⊆ nodesAmong children) :
        ∀ visit ∈ Visit.value ⟨rule, text, start, stop, children⟩ :: visits,
          visit.node.nodes ⊆ (Node.mk rule text start stop children).nodes := by
      rw [List.forall_mem_cons]
      refine ⟨List.Subset.refl _, ?_⟩
      intro visit member
      rw [nodes]
      exact List.Subset.trans (inside visit member) (List.subset_cons_self _ _)
    unfold visits
    apply within
    split
    · exact visitsOnly_nodes children
    · exact visitsOnly_nodes children
    · exact visitsOperation_nodes children
    · exact visitsArgument_nodes children
    · exact fun visit member => nomatch member
theorem visitsOnly_nodes (nodes : List Node) :
    ∀ visit ∈ visitsOnly nodes, visit.node.nodes ⊆ nodesAmong nodes := by
  match nodes with
  | [] => exact fun visit member => nomatch member
  | [child] =>
    intro visit member
    exact List.Subset.trans (child.visits_nodes visit member) (List.subset_append_left _ _)
  | first :: second :: rest => exact fun visit member => nomatch member
theorem visitsOperation_nodes (nodes : List Node) :
    ∀ visit ∈ visitsOperation nodes, visit.node.nodes ⊆ nodesAmong nodes := by
  match nodes with
  | [] => exact fun visit member => nomatch member
  | first :: links =>
    rw [visitsOperation, nodesAmong, List.forall_mem_append]
    constructor
    · intro visit member
      exact List.Subset.trans (first.visits_nodes visit member) (List.subset_append_left _ _)
    · intro visit member
      exact List.Subset.trans (visitsLinks_nodes links visit member) (List.subset_append_right _ _)
theorem visitsLinks_nodes (links : List Node) :
    ∀ visit ∈ visitsLinks links, visit.node.nodes ⊆ nodesAmong links := by
  match links with
  | [] => exact fun visit member => nomatch member
  | [operator] => exact fun visit member => nomatch member
  | operator :: operand :: rest =>
    rw [visitsLinks, nodesAmong, nodesAmong, List.forall_mem_cons, List.forall_mem_append]
    refine ⟨List.subset_append_left _ _, ?_, ?_⟩
    · intro visit member
      exact List.subset_append_of_subset_right _
        (List.Subset.trans (operand.visits_nodes visit member) (List.subset_append_left _ _))
    · intro visit member
      exact List.subset_append_of_subset_right _
        (List.Subset.trans (visitsLinks_nodes rest visit member) (List.subset_append_right _ _))
theorem visitsArgument_nodes (nodes : List Node) :
    ∀ visit ∈ visitsArgument nodes, visit.node.nodes ⊆ nodesAmong nodes := by
  match nodes with
  | [] => exact fun visit member => nomatch member
  | child :: rest =>
    rw [visitsArgument, nodesAmong]
    split
    · intro visit member
      exact List.Subset.trans (child.visits_nodes visit member) (List.subset_append_left _ _)
    · intro visit member
      exact List.Subset.trans (visitsArgument_nodes rest visit member) (List.subset_append_right _ _)
end

theorem signed_comes (node : Node) (failure : Failure) (failed : node.signed = .error failure) :
    failure.ComesFrom node.nodes := by
  rw [signed] at failed
  split at failed
  · cases failed
  · cases failed
    exact node.violation_comes .signed

end Node

theorem Visit.failure?_comes (visit : Visit) (failure : Failure) (fails : visit.failure? = some failure) :
    failure.ComesFrom visit.node.nodes := by
  have refused (node : Node) (reason : Reason) (passes : Prop) [Decidable passes]
      (fails : (if passes then none else some (node.violation reason)) = some failure) :
      failure.ComesFrom node.nodes := by
    split at fails
    · cases fails
    · cases fails
      exact node.violation_comes reason
  cases visit with
  | operator node => exact refused node .operator _ fails
  | value node =>
    rw [failure?] at fails
    split at fails
    · exact refused node _ _ fails
    · exact refused node _ _ fails
    · exact refused node _ _ fails
    · exact refused node _ _ fails
    · split at fails
      · cases fails
      · rename_i stopped
        cases fails
        exact node.roll_comes failure stopped
    · split at fails
      · cases fails
      · rename_i stopped
        cases fails
        exact node.signed_comes failure stopped
    · cases fails
      exact node.violation_comes .rule

namespace Node

/-- Whatever a tree is, building it fails only by naming one of its nodes, by a numeral that is too long, or by
a count of zero. -/
theorem buildOnto_comes (rolls : List Roll) (node : Node) (failure : Failure)
    (failed : (node.buildOnto rolls).1 = .error failure) : failure.ComesFrom node.nodes := by
  obtain ⟨done, failing, rest, visits, _, fails, _⟩ := (node.grows rolls).failed failure failed
  have member : failing ∈ node.visits := by
    rw [visits]
    exact List.mem_append_right _ List.mem_cons_self
  exact (failing.failure?_comes failure fails).mono _ _ _ (node.visits_nodes failing member)

/-- Interpreting a tree, however malformed it is, yields an expression; or it names the rule and the text of a
node of the tree; or it fails for a numeral of more than 4300 digits, which is a number of dice, a size or a
count; or for a count of zeros. Nothing that it takes is ever missing. -/
theorem interpret_outcomes (rolls : List Roll) (node : Node) :
    (∃ expr, (node.interpretOnto rolls).1 = .ok expr) ∨
    (∃ violation, (node.interpretOnto rolls).1 = .error (.failure (.violated violation)) ∧
      ∃ other ∈ node.nodes, violation.rule = other.rule ∧ violation.text = other.text) ∨
    (∃ digits, (node.interpretOnto rolls).1 = .error (.failure (.overlong digits)) ∧
      ∃ numeral ∈ node.nodes, numeral.TooLong digits) ∨
    ∃ fault, (node.interpretOnto rolls).1 = .error (.failure (.faulty fault)) ∧
      ∃ count ∈ node.nodes, count.ZeroCount := by
  rw [interpretOnto_eq]
  cases built : (node.buildOnto rolls).1 with
  | ok expr => exact .inl ⟨expr, rfl⟩
  | error failure =>
    have comes := node.buildOnto_comes rolls failure built
    cases failure with
    | rejected rejection => exact comes.elim
    | violated violation => exact .inr (.inl ⟨violation, rfl, comes⟩)
    | overlong digits => exact .inr (.inr (.inl ⟨digits, rfl, comes⟩))
    | faulty fault => exact .inr (.inr (.inr ⟨fault, rfl, comes⟩))

/-- A count of zeros is at fault only if no other count takes its place. -/
example :
    let kept (count : String) : Node :=
      ⟨.keep, "k" ++ count, 0, 0, [⟨.selector, "k", 0, 0, []⟩, ⟨.count, count, 0, 0, []⟩]⟩
    let dice (modifiers : List Node) : Node := ⟨.diceRoll, "", 0, 0, ⟨.dieSize, "6", 0, 0, []⟩ :: modifiers⟩
    ((dice [kept "00"]).interpretOnto []).1 = .error (.failure (.faulty (.selection 0))) ∧
    ((dice [kept "00", kept "3"]).interpretOnto []).1.toBool := by
  simp only [interpretOnto_eq]
  decide +kernel

end Node
end Tabletop
