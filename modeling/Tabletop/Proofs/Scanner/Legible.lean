import Tabletop.Proofs.Scanner.Chain
import Tabletop.Proofs.Scanner.Missing

/-! What the scanners of terms and chains find, and what stops them. They find admissible chains
only, without a run that is too long and with calls no deeper than there is room for; and they stop,
other than for something that is missing, at a run of the text that is too long. -/
namespace Tabletop.Phrase
open Text (isLayout Ends)

structure Term.Legible (room : Nat) (term : Term) : Prop where
  admissible : term.Admissible
  short : term.overlong? = none
  shallow : term.depth ≤ room

structure Chain.Legible (room : Nat) (chain : Chain) : Prop where
  admissible : chain.Admissible
  short : chain.overlong? = none
  shallow : chain.depth ≤ room

theorem orElse_ok_missing {α : Type} (first : Scan α) (second : Unit → Scan α)
    (found : α × List Char) (ok : Scan.orElse first second = .ok found) :
    first = .ok found ∨
      (∃ expected rest, first = .error (.missing expected rest)) ∧ second () = .ok found := by
  cases first with
  | ok other => exact .inl ok
  | error halt =>
    cases halt with
    | missing expected rest =>
      rcases Scan.orElse_ok _ _ _ ok with impossible | second
      · cases impossible
      · exact .inr ⟨⟨expected, rest, rfl⟩, second⟩
    | overlong digits => cases ok

theorem orElse_overlong {α : Type} (first : Scan α) (second : Unit → Scan α) (digits : Nat)
    (failed : Scan.orElse first second = .error (.overlong digits)) :
    first = .error (.overlong digits) ∨ second () = .error (.overlong digits) := by
  unfold Scan.orElse at failed
  split at failed
  · split at failed
    · split at failed <;> cases failed
    · exact .inr failed
  · exact .inl failed

theorem noSize_of_missing (text : List Char) (expected : Expectation) (rest : List Char)
    (missing : scanDice ('d' :: text) = .error (.missing expected rest)) :
    ¬ PositiveRun (text.takeWhile Char.isDigit) ∧
      Numeral.overlong? (text.takeWhile Char.isDigit) = none := by
  rcases scanDice_missed _ _ _ missing with ⟨_, same, other⟩ | ⟨_, mark, zero⟩
  · exact absurd same (other text)
  · obtain rfl : text = rest := (List.cons.inj mark).2
    obtain ⟨value, short⟩ := Numeral.of_read_ok _ _ zero
    exact ⟨fun positive => absurd positive.2 (by omega), short⟩

theorem isName_of_missing (c : Char) (text : List Char) (start : isNameStart c = true)
    (expected : Expectation) (rest : List Char)
    (missing : scanDice (c :: text) = .error (.missing expected rest)) :
    IsName (c :: text.takeWhile isNamePart) ∧
      nameOverlong? (c :: text.takeWhile isNamePart) = none := by
  have digits : (text.takeWhile isNamePart).takeWhile Char.isDigit = text.takeWhile Char.isDigit := by
    have ends : Ends Char.isDigit (text.dropWhile isNamePart) := by
      intro c member
      by_contra digit
      rw [Bool.not_eq_false] at digit
      have part := Text.ends_dropWhile isNamePart text c member
      rw [isNamePart_of_isDigit c digit] at part
      cases part
    rw [← Text.takeWhile_before Char.isDigit _ _ ends, List.takeWhile_append_dropWhile]
  refine ⟨⟨⟨c, _, rfl, start, List.all_eq_true.mp List.all_takeWhile⟩, ?_⟩, ?_⟩
  · intro tail same
    obtain ⟨rfl, rfl⟩ := List.cons.inj same
    rw [digits]
    exact (noSize_of_missing text expected rest missing).1
  · unfold nameOverlong?
    split
    · rename_i tail same
      obtain ⟨rfl, rfl⟩ := List.cons.inj same
      rw [digits]
      exact (noSize_of_missing text expected rest missing).2
    · rfl

theorem scanDigits_sound (negative : Bool) (text rest : List Char) (term : Term)
    (found : scanDigits negative text = .ok (term, rest)) (room : Nat) : term.Legible room := by
  unfold scanDigits at found
  split at found
  · cases found
  · rename_i some
    cases found
    exact ⟨⟨some, digits_takeWhile text⟩, rfl, Nat.zero_le _⟩

theorem scanNumber_sound (text rest : List Char) (term : Term)
    (found : scanNumber text = .ok (term, rest)) (room : Nat) : term.Legible room := by
  unfold scanNumber at found
  split at found
  · exact scanDigits_sound _ _ _ _ found room
  · exact scanDigits_sound _ _ _ _ found room

theorem scanClosing_sound (call : List Char → Term) (text rest : List Char) (term : Term)
    (found : scanClosing call text = .ok (term, rest)) :
    ∃ layout, Layout layout ∧ term = call layout := by
  unfold scanClosing at found
  split at found
  · cases found
    exact ⟨_, layout_takeWhile text, rfl⟩
  · cases found

section Arguments

variable (argument : Scanner Chain.text) (room : Nat)
variable (legible : ∀ text chain rest, argument.run text = .ok (chain, rest) →
  chain.Admissible ∧ chain.overlong? = none ∧ chain.depth < room)
include legible

theorem scanCall_sound (text rest : List Char) (term : Term)
    (noDice : ∃ expected rest, scanDice text = .error (.missing expected rest))
    (found : scanCall argument text = .ok (term, rest)) : term.Legible room := by
  obtain ⟨expected, left, missing⟩ := noDice
  unfold scanCall at found
  split at found
  · cases found
  · rename_i c more
    split at found
    · rename_i start
      obtain ⟨isName, short⟩ := isName_of_missing c more start expected left missing
      unfold scanArgument at found
      split at found
      · rename_i inner opening
        obtain ⟨⟨chain, behind⟩, scanned, closed⟩ := bind_ok _ _ _ found
        obtain ⟨admissible, shorts, shallow⟩ := legible _ _ _ scanned
        obtain ⟨layout, layouts, rfl⟩ := scanClosing_sound _ _ _ _ closed
        refine ⟨⟨isName, layout_takeWhile _, layout_takeWhile _, admissible, layouts⟩, ?_, shallow⟩
        simp [Term.overlong?, short, shorts]
      · cases found
    · cases found

theorem scanTerm_sound (text rest : List Char) (term : Term)
    (found : scanTerm argument text = .ok (term, rest)) : term.Legible room := by
  rcases orElse_ok_missing _ _ _ found with dice | ⟨⟨expected, left, missing⟩, other⟩
  · obtain ⟨⟨dice, left⟩, scanned, same⟩ := map_ok _ _ _ dice
    cases same
    obtain ⟨admissible, short⟩ := scanDice_sound _ _ _ scanned
    exact ⟨admissible, short, Nat.zero_le _⟩
  · have noDice := map_error _ _ _ missing
    rcases Scan.orElse_ok _ _ _ other with call | number
    · exact scanCall_sound argument room legible text rest term ⟨expected, left, noDice⟩ call
    · exact scanNumber_sound text rest term number room

end Arguments

theorem scanJoint?_sound (text rest : List Char) (joint : Joint)
    (found : scanJoint? text = some (joint, rest)) : joint.Admissible := by
  unfold scanJoint? at found
  split at found
  · cases found
  · obtain ⟨operator, named, same⟩ := Option.map_eq_some_iff.mp found
    cases same
    exact ⟨layout_takeWhile _, layout_takeWhile _⟩

theorem scanChain_sound (term : Scanner Term.text) (room : Nat)
    (legible : ∀ text found rest, term.run text = .ok (found, rest) → found.Legible room)
    (text rest : List Char) (chain : Chain) (found : scanChain term text = .ok (chain, rest)) :
    chain.Legible room := by
  fun_induction scanChain term text generalizing chain rest with
  | case1 text halt failed => cases found
  | case2 text first left scanned ends =>
    cases found
    obtain ⟨admissible, short, shallow⟩ := legible _ _ _ scanned
    exact ⟨admissible, short, shallow⟩
  | case3 text first left scanned joint after next more rest' others ih =>
    cases found
    obtain ⟨admissible, short, shallow⟩ := legible _ _ _ scanned
    obtain ⟨rest_admissible, rest_short, rest_shallow⟩ := ih _ _ others
    refine ⟨⟨admissible, scanJoint?_sound _ _ _ next, rest_admissible⟩, ?_,
      max_le shallow rest_shallow⟩
    simp [Chain.overlong?, short, rest_short]
  | case4 text first left scanned joint after next expected missing others ih =>
    -- A link that misses its term is forgotten, and the chain ends before it.
    cases found
    obtain ⟨admissible, short, shallow⟩ := legible _ _ _ scanned
    exact ⟨admissible, short, shallow⟩
  | case5 text first left scanned joint after next digits others ih => cases found

theorem nested_sound (room : Nat) (text rest : List Char) (chain : Chain)
    (found : (Scanner.nested .refusal room).run text = .ok (chain, rest)) :
    chain.Admissible ∧ chain.overlong? = none ∧ chain.depth < room := by
  induction room generalizing text chain rest with
  | zero => cases found
  | succ room ih =>
    have terms : ∀ text term rest, (Scanner.terms (.nested .refusal room)).run text = .ok (term, rest) →
        term.Legible room := by
      intro text term rest found
      apply scanTerm_sound (.nested .refusal room) room _ text rest term found
      intro text chain rest found
      exact ih text rest chain found
    obtain ⟨admissible, short, shallow⟩ := scanChain_sound _ room terms text rest chain found
    exact ⟨admissible, short, Nat.lt_succ_of_le shallow⟩

theorem scanNumber_not_overlong (text : List Char) (digits : Nat) :
    scanNumber text ≠ .error (.overlong digits) := by
  intro failed
  unfold scanNumber scanDigits at failed
  split at failed <;> split at failed <;> cases failed

theorem scanClosing_not_overlong (call : List Char → Term) (text : List Char) (digits : Nat) :
    scanClosing call text ≠ .error (.overlong digits) := by
  intro failed
  unfold scanClosing at failed
  split at failed <;> cases failed

section Stops

variable (argument : Scanner Chain.text)
variable (stops : ∀ text digits, argument.run text = .error (.overlong digits) →
  LongRun digits text)
include stops

theorem scanCall_overlong (text : List Char) (digits : Nat)
    (failed : scanCall argument text = .error (.overlong digits)) : LongRun digits text := by
  unfold scanCall at failed
  split at failed
  · cases failed
  · rename_i c more
    split at failed
    · unfold scanArgument at failed
      split at failed
      · rename_i inner opening
        have outer := List.takeWhile_append_dropWhile (p := isLayout) (l := more.dropWhile isNamePart)
        rw [opening] at outer
        rcases bind_error _ _ _ failed with scanned | ⟨⟨chain, left⟩, _, closed⟩
        · have long := stops _ _ scanned
          have within : LongRun digits inner := by
            rw [← List.takeWhile_append_dropWhile (p := isLayout) (l := inner)]
            exact long.behind digits _ _
          have named : LongRun digits (more.dropWhile isNamePart) := by
            rw [← outer]
            exact (within.behind digits ['('] inner).behind digits _ _
          have after : LongRun digits more := by
            rw [← List.takeWhile_append_dropWhile (p := isNamePart) (l := more)]
            exact named.behind digits _ _
          exact after.behind digits [c] more
        · exact absurd closed (scanClosing_not_overlong _ _ _)
      · cases failed
    · cases failed

theorem scanTerm_overlong (text : List Char) (digits : Nat)
    (failed : scanTerm argument text = .error (.overlong digits)) : LongRun digits text := by
  rcases orElse_overlong _ _ _ failed with dice | other
  · exact scanDice_overlong text digits (map_error _ _ _ dice)
  · rcases orElse_overlong _ _ _ other with call | number
    · exact scanCall_overlong argument stops text digits call
    · exact absurd number (scanNumber_not_overlong text digits)

end Stops

theorem scanChain_overlong (term : Scanner Term.text)
    (stops : ∀ text digits, term.run text = .error (.overlong digits) → LongRun digits text)
    (text : List Char) (digits : Nat)
    (failed : scanChain term text = .error (.overlong digits)) : LongRun digits text := by
  fun_induction scanChain term text with
  | case1 text halt first =>
    cases failed
    exact stops text digits first
  | case2 text first left scanned ends => cases failed
  | case3 text first left scanned joint after next more rest' others ih => cases failed
  | case4 text first left scanned joint after next expected missing others ih => cases failed
  | case5 text first left scanned joint after next length others ih =>
    cases failed
    rw [(term.reads _ _ _ scanned).2, scanJoint?_reads _ _ _ next]
    exact ((ih others).behind digits _ _).behind digits _ _

theorem nested_overlong (room : Nat) (text : List Char) (digits : Nat)
    (failed : (Scanner.nested .refusal room).run text = .error (.overlong digits)) :
    LongRun digits text := by
  induction room generalizing text digits with
  | zero => cases failed
  | succ room ih =>
    apply scanChain_overlong _ _ text digits failed
    exact scanTerm_overlong _ ih

end Tabletop.Phrase
