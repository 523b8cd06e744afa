import Tabletop.Proofs.Phrase.Grammar
import Tabletop.Proofs.Phrase.Meaning

/-! What the modifiers of a dice term come to. Of the selections and of the rerolls the last one counts, and
a double mark outweighs single ones wherever it stands. Marks that follow each other are told apart as
double ones, so a double mark stands among the modifiers exactly if two marks are adjacent in the text. -/
namespace Tabletop.Phrase

def Modifier.selection? : Modifier → Option (Roll.Policy × Nat)
  | .select selector count => some (selector.policy, countValue count)
  | _ => none

def Modifier.threshold? : Modifier → Option Nat
  | .reroll count => some (countValue count)
  | _ => none

/-- Of a field that some modifiers give a value and others leave as it is, the last value given counts. -/
theorem amended_last {α β : Type} (field : Roll.Draft → Option β) (given? : Modifier → Option α)
    (enter : α → β) (step : ∀ draft modifier,
      field (Modifier.amend draft modifier) = ((given? modifier).map enter).or (field draft))
    (modifiers : List Modifier) (draft : Roll.Draft) :
    field (modifiers.foldl Modifier.amend draft) =
      ((modifiers.filterMap given?).getLast?.map enter).or (field draft) := by
  induction modifiers generalizing draft with
  | nil => rfl
  | cons modifier rest ih =>
    rw [List.foldl_cons, ih, step, List.filterMap_cons]
    cases given? modifier with
    | none => rfl
    | some value =>
      simp only [List.getLast?_cons]
      cases (rest.filterMap given?).getLast? <;> rfl

theorem amended_selection (modifiers : List Modifier) (draft : Roll.Draft) :
    (modifiers.foldl Modifier.amend draft).selection =
      ((modifiers.filterMap Modifier.selection?).getLast?.map fun last => (last.1, (last.2 : Int))).or
        draft.selection := by
  refine amended_last (·.selection) Modifier.selection? _ ?_ modifiers draft
  intro draft modifier
  cases modifier with
  | explode twice => cases twice <;> rfl
  | select selector count => rfl
  | reroll count => rfl

theorem amended_reroll (modifiers : List Modifier) (draft : Roll.Draft) :
    (modifiers.foldl Modifier.amend draft).reroll =
      ((modifiers.filterMap Modifier.threshold?).getLast?.map fun last : Nat => (last : Int)).or draft.reroll := by
  refine amended_last (·.reroll) Modifier.threshold? _ ?_ modifiers draft
  intro draft modifier
  cases modifier with
  | explode twice => cases twice <;> rfl
  | select selector count => rfl
  | reroll count => rfl

theorem amended_indefinite (modifiers : List Modifier) (draft : Roll.Draft) :
    (modifiers.foldl Modifier.amend draft).explosion = .indefinite ↔
      draft.explosion = .indefinite ∨ Modifier.explode true ∈ modifiers := by
  induction modifiers generalizing draft with
  | nil => simp
  | cons modifier rest ih =>
    rw [List.foldl_cons, ih]
    cases modifier with
    | explode twice => cases twice <;> simp [Modifier.amend]
    | select selector count => simp [Modifier.amend]
    | reroll count => simp [Modifier.amend]

theorem amended_none (modifiers : List Modifier) (draft : Roll.Draft) :
    (modifiers.foldl Modifier.amend draft).explosion = .none ↔
      draft.explosion = .none ∧ ∀ twice, Modifier.explode twice ∉ modifiers := by
  induction modifiers generalizing draft with
  | nil => simp
  | cons modifier rest ih =>
    rw [List.foldl_cons, ih]
    cases modifier with
    | explode twice =>
      apply iff_of_false
      · cases twice <;> by_cases before : draft.explosion = .indefinite <;> simp [Modifier.amend, before]
      · rintro ⟨_, unmarked⟩
        exact unmarked twice List.mem_cons_self
    | select selector count => simp [Modifier.amend]
    | reroll count => simp [Modifier.amend]

/-- The modifiers with a single mark before them. It makes a double mark with the single one that may stand
behind the double ones. -/
def marked : List Modifier → List Modifier
  | .explode false :: rest => .explode true :: rest
  | .explode true :: rest => .explode true :: marked rest
  | modifiers => .explode false :: modifiers

/-- The modifiers as they are told apart in their text, whatever marks it was written by. -/
def merged : List Modifier → List Modifier
  | [] => []
  | .explode false :: rest => marked (merged rest)
  | modifier :: rest => modifier :: merged rest

theorem marked_text (modifiers : List Modifier) :
    (marked modifiers).flatMap Modifier.text = '!' :: modifiers.flatMap Modifier.text := by
  fun_induction marked modifiers with
  | case1 rest => rfl
  | case2 rest ih =>
    rw [List.flatMap_cons, ih]
    rfl
  | case3 modifiers _ _ => rfl

theorem merged_text (modifiers : List Modifier) :
    (merged modifiers).flatMap Modifier.text = modifiers.flatMap Modifier.text := by
  fun_induction merged modifiers with
  | case1 => rfl
  | case2 rest ih =>
    rw [marked_text, ih]
    rfl
  | case3 modifier rest _ ih => rw [List.flatMap_cons, List.flatMap_cons, ih]

theorem forall_merged (property : Modifier → Prop) (marks : ∀ twice, property (.explode twice))
    (modifiers : List Modifier) (all : ∀ modifier ∈ modifiers, property modifier) :
    ∀ modifier ∈ merged modifiers, property modifier := by
  have beginning (modifiers : List Modifier) (all : ∀ modifier ∈ modifiers, property modifier) :
      ∀ modifier ∈ marked modifiers, property modifier := by
    fun_induction marked modifiers with
    | case1 rest => exact List.forall_mem_cons.mpr ⟨marks true, (List.forall_mem_cons.mp all).2⟩
    | case2 rest ih => exact List.forall_mem_cons.mpr ⟨marks true, ih (List.forall_mem_cons.mp all).2⟩
    | case3 modifiers _ _ => exact List.forall_mem_cons.mpr ⟨marks false, all⟩
  fun_induction merged modifiers with
  | case1 => exact all
  | case2 rest ih => exact beginning _ (ih (List.forall_mem_cons.mp all).2)
  | case3 modifier rest _ ih =>
    obtain ⟨first, others⟩ := List.forall_mem_cons.mp all
    exact List.forall_mem_cons.mpr ⟨first, ih others⟩

theorem filterMap_merged {α : Type} (reader : Modifier → Option α)
    (marks : ∀ twice, reader (.explode twice) = none) (modifiers : List Modifier) :
    (merged modifiers).filterMap reader = modifiers.filterMap reader := by
  have beginning (modifiers : List Modifier) :
      (marked modifiers).filterMap reader = modifiers.filterMap reader := by
    fun_induction marked modifiers with
    | case1 rest => rw [List.filterMap_cons_none (marks true), List.filterMap_cons_none (marks false)]
    | case2 rest ih => rw [List.filterMap_cons_none (marks true), List.filterMap_cons_none (marks true), ih]
    | case3 modifiers _ _ => rw [List.filterMap_cons_none (marks false)]
  fun_induction merged modifiers with
  | case1 => rfl
  | case2 rest ih => rw [beginning, ih, List.filterMap_cons_none (marks false)]
  | case3 modifier rest _ ih => rw [List.filterMap_cons, List.filterMap_cons, ih]

theorem mayPrecede_double (modifier : Modifier) : (Modifier.explode true).MayPrecede modifier := by
  intro single
  cases single

theorem marked_apart (modifiers : List Modifier) (apart : modifiers.IsChain Modifier.MayPrecede) :
    (marked modifiers).IsChain Modifier.MayPrecede := by
  fun_induction marked modifiers with
  | case1 rest => exact List.isChain_cons.mpr ⟨fun second _ => mayPrecede_double second, apart.tail⟩
  | case2 rest ih => exact List.isChain_cons.mpr ⟨fun second _ => mayPrecede_double second, ih apart.tail⟩
  | case3 modifiers single double =>
    refine List.isChain_cons.mpr ⟨?_, apart⟩
    rintro second first _ twice rfl
    obtain ⟨rest, rfl⟩ := List.head?_eq_some_iff.mp first
    cases twice with
    | false => exact single rest rfl
    | true => exact double rest rfl

theorem merged_apart (modifiers : List Modifier) : (merged modifiers).IsChain Modifier.MayPrecede := by
  fun_induction merged modifiers with
  | case1 => exact .nil
  | case2 rest ih => exact marked_apart _ ih
  | case3 modifier rest other ih =>
    refine List.isChain_cons.mpr ⟨?_, ih⟩
    intro second _ single
    exact absurd single other

def Doubled (text : List Char) : Prop := ['!', '!'] <:+: text

theorem doubled_cons (c : Char) (text : List Char) :
    Doubled (c :: text) ↔ (c = '!' ∧ text.head? = some '!') ∨ Doubled text := by
  rw [Doubled, List.infix_cons_iff, List.cons_prefix_cons, eq_comm]
  apply or_congr_left
  cases text with
  | nil => simp
  | cons next rest => simp [List.cons_prefix_cons, eq_comm]

theorem doubled_unmarked (before text : List Char) (unmarked : '!' ∉ before) :
    Doubled (before ++ text) ↔ Doubled text := by
  induction before with
  | nil => exact Iff.rfl
  | cons c rest ih =>
    obtain ⟨other, others⟩ := not_or.mp (mt List.mem_cons.mpr unmarked)
    rw [List.cons_append, doubled_cons, ih others, or_iff_right]
    rintro ⟨same, _⟩
    exact other same.symm

theorem not_mem_digits (run : List Char) (digits : Digits run) (c : Char) (other : c.isDigit = false) :
    c ∉ run := by
  intro member
  rw [digits c member] at other
  cases other

theorem Modifier.mark_mem_text (modifier : Modifier) (admissible : modifier.Admissible) :
    '!' ∈ modifier.text ↔ ∃ twice, modifier = .explode twice := by
  cases modifier with
  | explode twice => exact iff_of_true (by cases twice <;> decide) ⟨twice, rfl⟩
  | select selector count =>
    have unmarked := not_mem_digits count (Count.digits count admissible) '!' rfl
    apply iff_of_false
    · rw [Modifier.text, List.mem_append, not_or]
      exact ⟨by cases selector <;> decide, unmarked⟩
    · rintro ⟨twice, same⟩
      cases same
  | reroll count =>
    have unmarked := not_mem_digits count (Count.digits count admissible) '!' rfl
    apply iff_of_false
    · rw [Modifier.text, List.mem_cons, not_or]
      exact ⟨by decide, unmarked⟩
    · rintro ⟨twice, same⟩
      cases same

theorem mark_mem_modifiers (modifiers : List Modifier)
    (admissible : ∀ modifier ∈ modifiers, modifier.Admissible) :
    '!' ∈ modifiers.flatMap Modifier.text ↔ ∃ twice, Modifier.explode twice ∈ modifiers := by
  rw [List.mem_flatMap]
  constructor
  · rintro ⟨modifier, member, marks⟩
    obtain ⟨twice, rfl⟩ := (modifier.mark_mem_text (admissible modifier member)).mp marks
    exact ⟨twice, member⟩
  · rintro ⟨twice, member⟩
    exact ⟨_, member, ((Modifier.explode twice).mark_mem_text trivial).mpr ⟨twice, rfl⟩⟩

theorem head?_modifiers (modifiers : List Modifier) (admissible : ∀ modifier ∈ modifiers, modifier.Admissible)
    (marks : (modifiers.flatMap Modifier.text).head? = some '!') :
    ∃ twice, modifiers.head? = some (.explode twice) := by
  cases modifiers with
  | nil => cases marks
  | cons modifier rest =>
    have begins : '!' ∈ modifier.text := by
      rw [List.flatMap_cons, List.head?_append_of_ne_nil _ modifier.text_ne_nil] at marks
      exact List.mem_of_mem_head? marks
    obtain ⟨twice, rfl⟩ := (modifier.mark_mem_text (admissible modifier (by simp))).mp begins
    exact ⟨twice, rfl⟩

theorem doubled_modifiers (modifiers : List Modifier) (apart : modifiers.IsChain Modifier.MayPrecede)
    (admissible : ∀ modifier ∈ modifiers, modifier.Admissible) :
    Doubled (modifiers.flatMap Modifier.text) ↔ Modifier.explode true ∈ modifiers := by
  induction modifiers with
  | nil => simp [Doubled]
  | cons modifier rest ih =>
    obtain ⟨first, others⟩ := List.forall_mem_cons.mp admissible
    obtain ⟨next, chain⟩ := List.isChain_cons.mp apart
    have within := ih chain others
    rw [List.flatMap_cons, List.mem_cons]
    by_cases marks : ∃ twice, modifier = .explode twice
    · obtain ⟨twice, rfl⟩ := marks
      cases twice with
      | true => exact iff_of_true (List.prefix_append _ _).isInfix (.inl rfl)
      | false =>
        -- A single mark is not followed by another one.
        have alone : (rest.flatMap Modifier.text).head? ≠ some '!' := by
          intro marks
          obtain ⟨twice, follows⟩ := head?_modifiers rest others marks
          exact next _ follows rfl twice rfl
        rw [Modifier.text, List.singleton_append, doubled_cons, within]
        simp [alone]
    · have unmarked := (modifier.mark_mem_text first).not.mpr marks
      rw [doubled_unmarked _ _ unmarked, within, or_iff_right]
      rintro rfl
      exact marks ⟨true, rfl⟩

end Tabletop.Phrase
