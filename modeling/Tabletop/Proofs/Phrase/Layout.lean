import Tabletop.Proofs.Phrase.Dense
import Tabletop.Proofs.Phrase.Meaning

/-! Layout in phrases. Tokens hold no layout, so a phrase without its layout is written as the text
without its layout characters. It means what the phrase means, has the same calls and stops the scanner
at the same runs, so all of that depends on a phrase without its layout only. -/
namespace Tabletop

def Text.withoutLayout (text : List Char) : List Char := text.filter fun c => !Text.isLayout c

namespace Phrase
open Text (withoutLayout)

theorem withoutLayout_dense (text : List Char) (dense : Dense text) : withoutLayout text = text := by
  apply List.filter_eq_self.mpr
  intro c member
  simp [isLayout_of_isTokenPart c (dense c member)]

theorem withoutLayout_layout (layout : List Char) (layouts : Layout layout) :
    withoutLayout layout = [] := by
  apply List.filter_eq_nil_iff.mpr
  intro c member
  simp [layouts c member]

theorem withoutLayout_append (first second : List Char) :
    withoutLayout (first ++ second) = withoutLayout first ++ withoutLayout second :=
  List.filter_append _ _

theorem withoutLayout_cons (c : Char) (text : List Char) (other : Text.isLayout c = false) :
    withoutLayout (c :: text) = c :: withoutLayout text :=
  List.filter_cons_of_pos (by simp [other])

def Joint.bare (joint : Joint) : Joint := ⟨[], joint.operator, []⟩

mutual
def Term.bare : Term → Term
  | .dice dice => .dice dice
  | .number negative digits => .number negative digits
  | .call name _ _ argument _ => .call name [] [] argument.bare []
def Chain.bare : Chain → Chain
  | .last term => .last term.bare
  | .link term joint rest => .link term.bare joint.bare rest.bare
end

theorem Joint.bare_text (joint : Joint) (admissible : joint.Admissible) :
    joint.bare.text = withoutLayout joint.text := by
  have operator : Text.isLayout joint.operator.char = false := by
    cases joint.operator <;> decide
  rw [Joint.text, Joint.text, withoutLayout_append, withoutLayout_layout _ admissible.before,
    withoutLayout_cons _ _ operator, withoutLayout_layout _ admissible.after]
  rfl

mutual
theorem Term.bare_text (term : Term) (admissible : term.Admissible) :
    term.bare.text = withoutLayout term.text := by
  match term with
  | .dice dice => exact (withoutLayout_dense _ (dice.dense admissible)).symm
  | .number negative digits =>
    have digits := withoutLayout_dense _ (dense_digits digits admissible.2)
    cases negative with
    | true =>
      rw [Term.bare, Term.text, withoutLayout_cons _ _ (by decide), digits]
    | false => exact digits.symm
  | .call name beforeOpening afterOpening argument beforeClosing =>
    obtain ⟨isName, before, after, inner, closing⟩ := admissible
    have named := withoutLayout_dense name (dense_name name isName.parts)
    rw [Term.bare, Term.text, Term.text, argument.bare_text inner, withoutLayout_append, named,
      withoutLayout_append, withoutLayout_layout _ before, withoutLayout_cons _ _ (by decide),
      withoutLayout_append, withoutLayout_layout _ after, withoutLayout_append, withoutLayout_append,
      withoutLayout_layout _ closing, withoutLayout_cons _ _ (by decide)]
    rfl
theorem Chain.bare_text (chain : Chain) (admissible : chain.Admissible) :
    chain.bare.text = withoutLayout chain.text := by
  match chain with
  | .last term => exact term.bare_text admissible
  | .link term joint rest =>
    rw [Chain.bare, Chain.text, Chain.text, term.bare_text admissible.1,
      joint.bare_text admissible.2.1, rest.bare_text admissible.2.2, withoutLayout_append,
      withoutLayout_append]
end

mutual
theorem Term.bare_admissible (term : Term) (admissible : term.Admissible) : term.bare.Admissible := by
  match term with
  | .dice dice => exact admissible
  | .number negative digits => exact admissible
  | .call name beforeOpening afterOpening argument beforeClosing =>
    exact ⟨admissible.1, layout_nil, layout_nil, argument.bare_admissible admissible.2.2.2.1, layout_nil⟩
theorem Chain.bare_admissible (chain : Chain) (admissible : chain.Admissible) :
    chain.bare.Admissible := by
  match chain with
  | .last term => exact term.bare_admissible admissible
  | .link term joint rest =>
    exact ⟨term.bare_admissible admissible.1, ⟨layout_nil, layout_nil⟩, rest.bare_admissible admissible.2.2⟩
end

mutual
theorem Term.bare_depth (term : Term) : term.bare.depth = term.depth := by
  match term with
  | .dice dice => rfl
  | .number negative digits => rfl
  | .call name beforeOpening afterOpening argument beforeClosing =>
    rw [Term.bare, Term.depth, argument.bare_depth, Term.depth]
theorem Chain.bare_depth (chain : Chain) : chain.bare.depth = chain.depth := by
  match chain with
  | .last term => exact term.bare_depth
  | .link term joint rest => rw [Chain.bare, Chain.depth, term.bare_depth, rest.bare_depth, Chain.depth]
end

mutual
theorem Term.bare_overlong? (term : Term) : term.bare.overlong? = term.overlong? := by
  match term with
  | .dice dice => rfl
  | .number negative digits => rfl
  | .call name beforeOpening afterOpening argument beforeClosing =>
    rw [Term.bare, Term.overlong?, argument.bare_overlong?, Term.overlong?]
theorem Chain.bare_overlong? (chain : Chain) : chain.bare.overlong? = chain.overlong? := by
  match chain with
  | .last term => exact term.bare_overlong?
  | .link term joint rest =>
    rw [Chain.bare, Chain.overlong?, term.bare_overlong?, rest.bare_overlong?, Chain.overlong?]
end

mutual
theorem Term.bare_assembly (term : Term) : term.bare.assembly = term.assembly := by
  match term with
  | .dice dice => rfl
  | .number negative digits => rfl
  | .call name beforeOpening afterOpening argument beforeClosing =>
    rw [Term.bare, Term.assembly, argument.bare_assemblyOnto, Term.assembly]
theorem Chain.bare_assemblyOnto (chain : Chain) (join : Expr → Expr) :
    chain.bare.assemblyOnto join = chain.assemblyOnto join := by
  match chain with
  | .last term => rw [Chain.bare, Chain.assemblyOnto, term.bare_assembly, Chain.assemblyOnto]
  | .link term joint rest =>
    rw [Chain.bare, Chain.assemblyOnto, term.bare_assembly, Chain.assemblyOnto]
    congr 1
    funext value
    exact rest.bare_assemblyOnto _
end

end Phrase
end Tabletop
