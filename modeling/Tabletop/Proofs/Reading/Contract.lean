import Tabletop.Payload
import Tabletop.Proofs.Phrase.Conversions
import Tabletop.Proofs.Reading.Failures
import Tabletop.Proofs.Reading.Rendered

/-! What a request is answered with. A text is answered as long as none of its runs of digits is too
long: it is read, or it is refused under the code of texts that are not notation. Notation is answered
exactly if no run that is converted is too long; the failures behind longer runs carry no such code. -/
namespace Tabletop

/-- The text is read, or refused as not being notation. -/
def Answers (text : String) : Prop :=
  (∃ reading, read text = .ok reading) ∨ ∃ rejection, read text = .error (.rejected rejection)

theorem code_toList : "[UNPARSEABLE_INPUT]".toList =
    ['[', 'U', 'N', 'P', 'A', 'R', 'S', 'E', 'A', 'B', 'L', 'E', '_', 'I', 'N', 'P', 'U', 'T', ']'] := rfl

theorem not_coded (start rest more : String) (some : 2 ≤ start.toList.length)
    (differs : start.toList.take 2 ≠ ['[', 'U']) : start ++ rest ≠ "[UNPARSEABLE_INPUT]" ++ more := by
  intro coded
  have initials := congrArg (fun message : String => message.toList.take 2) coded
  simp only [String.toList_append, code_toList, List.take_append_of_le_length some] at initials
  exact differs initials

theorem Rejection.message_coded (rejection : Rejection) :
    ∃ more, rejection.message = "[UNPARSEABLE_INPUT]" ++ more := by
  have code : "[UNPARSEABLE_INPUT] " = "[UNPARSEABLE_INPUT]" ++ " " := by decide
  unfold Rejection.message
  simp only [code, String.append_assoc]
  exact ⟨_, rfl⟩

theorem Text.quote_not_coded (text rest more : String) :
    Text.quote text ++ rest ≠ "[UNPARSEABLE_INPUT]" ++ more := by
  intro coded
  have first := congrArg (fun message : String => message.toList.head?) coded
  simp only [String.toList_append, code_toList, Text.quote, String.toList_ofList, List.cons_append,
    List.head?_cons, Option.some.injEq] at first
  unfold Text.delimiter at first
  split at first <;> exact absurd first (by decide)

theorem Roll.Fault.message_not_coded (fault : Roll.Fault) (more : String) :
    fault.message ≠ "[UNPARSEABLE_INPUT]" ++ more := by
  cases fault with
  | count given => exact not_coded _ _ more (by decide) (by decide)
  | size given => exact not_coded _ _ more (by decide) (by decide)
  | selection given => exact not_coded _ _ more (by decide) (by decide)
  | reroll given => exact not_coded _ _ more (by decide) (by decide)
  | explosion given => exact Text.quote_not_coded given _ more

theorem Violation.message_not_coded (violation : Violation) (more : String) :
    violation.message ≠ "[UNPARSEABLE_INPUT]" ++ more := by
  unfold Violation.message
  simp only [String.append_assoc]
  apply not_coded
  · decide
  · decide

/-- Only the refusal of a text carries the code. -/
theorem Failure.message_coded_iff (failure : Failure) :
    (∃ more, failure.message = "[UNPARSEABLE_INPUT]" ++ more) ↔
      ∃ rejection, failure = .rejected rejection := by
  constructor
  · rintro ⟨more, coded⟩
    cases failure with
    | rejected rejection => exact ⟨rejection, rfl⟩
    | violated violation => exact absurd coded (violation.message_not_coded more)
    | overlong digits =>
      refine absurd coded ?_
      unfold Failure.message
      simp only [String.append_assoc]
      apply not_coded
      · decide
      · decide
    | faulty fault => exact absurd coded (fault.message_not_coded more)
  · rintro ⟨rejection, rfl⟩
    exact rejection.message_coded

theorem answers_iff_published (text : String) (stamp : Stamp) :
    Answers text ↔ (∃ payload, publish stamp text = .ok payload) ∨
      ∃ more, publish stamp text = .error ("[UNPARSEABLE_INPUT]" ++ more) := by
  unfold Answers publish
  cases read text with
  | ok reading => exact iff_of_true (.inl ⟨reading, rfl⟩) (.inl ⟨_, rfl⟩)
  | error failure =>
    have coded := failure.message_coded_iff
    simpa using coded.symm

theorem ofAssembly_not_rejected (phrase : Phrase) (text : String) (derives : phrase.Derives text)
    (rejection : Rejection) : Reading.ofAssembly phrase.chain.assembly ≠ .error (.rejected rejection) := by
  rw [Ne, ofAssembly_error, phrase.chain.failed?_assembly 0 [] derives.chain]
  intro found
  obtain ⟨numeral, _, long⟩ := List.exists_of_findSome?_eq_some found
  unfold Node.overlong? at long
  split at long
  · cases long
  · unfold Node.overlong at long
    split at long <;> cases long

theorem read_iff_convertible (phrase : Phrase) (text : String) (derives : phrase.Derives text)
    (shallow : phrase.chain.depth ≤ Nesting.limit) :
    (∃ reading, read text = .ok reading) ↔ Phrase.Convertible phrase.chain.conversions := by
  rw [read_complete phrase text derives shallow, phrase.chain.convertible_iff id derives.chain]
  cases phrase.chain.overlong? with
  | none =>
    simp only [true_and]
    exact ofAssembly_ok phrase.chain.assembly
  | some digits =>
    apply iff_of_false
    · rintro ⟨reading, found⟩
      cases found
    · rintro ⟨short, _⟩
      cases short

/-- Notation is not refused, so it is answered exactly if it is read. -/
theorem answers_iff_read (phrase : Phrase) (text : String) (derives : phrase.Derives text)
    (shallow : phrase.chain.depth ≤ Nesting.limit) :
    Answers text ↔ ∃ reading, read text = .ok reading := by
  refine ⟨?_, .inl⟩
  rintro (found | ⟨rejection, refused⟩)
  · exact found
  · rw [read_complete phrase text derives shallow] at refused
    cases stopped : phrase.chain.overlong? with
    | none =>
      rw [stopped] at refused
      exact absurd refused (ofAssembly_not_rejected phrase text derives rejection)
    | some digits =>
      rw [stopped] at refused
      cases refused

theorem Phrase.Derives.convertible (phrase : Phrase) (text : String) (derives : phrase.Derives text)
    (short : ∀ run, run <:+: text.toList → Phrase.Digits run → run.length ≤ Numeral.maxDigits) :
    Phrase.Convertible phrase.chain.conversions := by
  intro run converted
  obtain ⟨digits, within⟩ := phrase.chain.conversions_text derives.chain run converted
  apply short run _ digits
  rw [← derives.written]
  exact within.trans (List.infix_append' _ _ _)

theorem answers_of_short (text : String)
    (short : ∀ run, run <:+: text.toList → Phrase.Digits run → run.length ≤ Numeral.maxDigits) :
    Answers text := by
  cases found : readPhrase text with
  | ok phrase =>
    obtain ⟨derives, _, shallow⟩ := readPhrase_sound text phrase found
    exact .inl ((read_iff_convertible phrase text derives shallow).mpr
      (derives.convertible phrase text short))
  | error failure =>
    rcases readPhrase_error text failure found with ⟨rejection, rfl⟩ | ⟨_, _, run, inside, only, rfl, long⟩
    · refine .inr ⟨rejection, ?_⟩
      rw [read, readTree, found]
      rfl
    · exact absurd (short run inside only) (Nat.not_le_of_lt long)

/-- A request is answered by a payload or by a message with the code of refusals exactly if its text is
read or refused. That is so for every text without a run of digits that is too long, and for notation
exactly if no run that is converted is too long. -/
theorem answers_exact (text : String) (stamp : Stamp) :
    (Answers text ↔ (∃ payload, publish stamp text = .ok payload) ∨
      ∃ more, publish stamp text = .error ("[UNPARSEABLE_INPUT]" ++ more)) ∧
    ((∀ run, run <:+: text.toList → Phrase.Digits run → run.length ≤ Numeral.maxDigits) →
      Answers text) ∧
    ∀ phrase : Phrase, phrase.Derives text → phrase.chain.depth ≤ Nesting.limit →
      (Answers text ↔ ∀ run ∈ phrase.chain.conversions, run.length ≤ Numeral.maxDigits) := by
  refine ⟨answers_iff_published text stamp, answers_of_short text, ?_⟩
  intro phrase derives shallow
  rw [answers_iff_read phrase text derives shallow]
  exact read_iff_convertible phrase text derives shallow

/-- With 4300 digits a number is still read. -/
theorem answers_exact_nines :
    Answers (String.ofList (List.replicate 4300 '9')) ∧
    ∀ run ∈ (Phrase.mk [] (.last (.number false (List.replicate 4300 '9'))) []).chain.conversions,
      run.length ≤ Numeral.maxDigits := by
  have nines := Phrase.digits_replicate 4300 '9' (by decide)
  have some : List.replicate 4300 '9' ≠ [] := by
    rw [List.replicate_succ]
    exact List.cons_ne_nil _ _
  have contract := answers_exact (String.ofList (List.replicate 4300 '9')) ⟨"", ""⟩
  have answered : Answers (String.ofList (List.replicate 4300 '9')) := by
    apply contract.2.1
    intro run inside _
    apply inside.length_le.trans
    rw [String.toList_ofList, List.length_replicate]
    exact Nat.le_refl _
  exact ⟨answered, (contract.2.2 _ (Phrase.derives_digits _ some nines) (Nat.zero_le _)).mp answered⟩

theorem read_number_overlong (digits : List Char) (inside : Phrase.Digits digits)
    (long : Numeral.maxDigits < digits.length) :
    read (String.ofList digits) = .error (.violated ⟨.number, String.ofList digits, .signed⟩) := by
  have some : digits ≠ [] := List.length_pos_iff.mp (Nat.zero_lt_of_lt long)
  have stopped : Numeral.overlong? digits = .some digits.length := if_neg (Nat.not_le_of_lt long)
  rw [read_complete _ _ (Phrase.derives_digits digits some inside) (Nat.zero_le _)]
  change Reading.ofAssembly ((Phrase.Term.number false digits).assembly.andThen _) = _
  rw [Phrase.Term.assembly, stopped]
  rfl

theorem Phrase.derives_dice (dice : Phrase.Dice) (admissible : dice.Admissible) :
    (Phrase.mk [] (.last (.dice dice)) []).Derives (String.ofList dice.text) := by
  refine ⟨?_, layout_nil, admissible, layout_nil⟩
  rw [String.toList_ofList]
  exact List.append_nil _

theorem read_dice_overlong (dice : Phrase.Dice) (admissible : dice.Admissible) (digits : Nat)
    (long : dice.overlong?.or (Numeral.overlong? dice.count) = some digits) :
    read (String.ofList dice.text) = .error (.overlong digits) := by
  obtain ⟨roll, _, rolled⟩ := dice.roll_eq admissible
  rw [read_complete _ _ (Phrase.derives_dice dice admissible) (Nat.zero_le _)]
  simp only [Phrase.Chain.overlong?, Phrase.Term.overlong?]
  cases stopped : dice.overlong? with
  | some length =>
    rw [stopped, Option.some_or] at long
    rw [Option.some.inj long]
  | none =>
    rw [stopped, Option.none_or] at long
    change Reading.ofAssembly ((Phrase.Term.dice dice).assembly.andThen _) = _
    rw [Phrase.Term.assembly, rolled, long]
    rfl

theorem read_count_overlong (digits : List Char) (inside : Phrase.Digits digits)
    (long : Numeral.maxDigits < digits.length) :
    read (String.ofList (digits ++ ['d', '6'])) = .error (.overlong digits.length) := by
  have stopped : Numeral.overlong? digits = some digits.length := if_neg (Nat.not_le_of_lt long)
  have six : Phrase.PositiveRun ['6'] := ⟨Phrase.digits_replicate 1 '6' (by decide), by decide⟩
  exact read_dice_overlong ⟨digits, .digits ['6'], []⟩ ⟨inside, six, by simp, .nil⟩ _ stopped

theorem read_size_overlong (digits : List Char) (positive : Phrase.PositiveRun digits)
    (long : Numeral.maxDigits < digits.length) :
    read (String.ofList ('d' :: digits)) = .error (.overlong digits.length) := by
  have stopped : Numeral.overlong? digits = some digits.length := if_neg (Nat.not_le_of_lt long)
  have written : (Phrase.Dice.mk [] (.digits digits) []).text = 'd' :: digits := by
    simp [Phrase.Dice.text, Phrase.Size.text]
  rw [← written]
  apply read_dice_overlong ⟨[], .digits digits, []⟩ ⟨Phrase.digits_nil, positive, by simp, .nil⟩
  rw [Phrase.Dice.overlong?, Phrase.Size.overlong?, stopped]
  rfl

theorem positiveRun_nines (n : Nat) : Phrase.PositiveRun (List.replicate (n + 1) '9') := by
  refine ⟨Phrase.digits_replicate _ '9' (by decide), ?_⟩
  rw [List.replicate_succ, Numeral.value, Nat.ofDigitChars_cons, Nat.ofDigitChars_eq_ofDigitChars_zero]
  have scale : 0 < 10 ^ (List.replicate n '9').length := Nat.pow_pos (by decide)
  have nine : 10 * 0 + ('9'.toNat - '0'.toNat) = 9 := rfl
  rw [nine]
  omega

/-- With 4301 digits a number, a number of dice and a size all fail in another way. -/
theorem not_answers_nines :
    ¬ Answers (String.ofList (List.replicate 4301 '9')) ∧
    read (String.ofList (List.replicate 4301 '9')) =
      .error (.violated ⟨.number, String.ofList (List.replicate 4301 '9'), .signed⟩) ∧
    read (String.ofList (List.replicate 4301 '9' ++ ['d', '6'])) = .error (.overlong 4301) ∧
    read (String.ofList ('d' :: List.replicate 4301 '9')) = .error (.overlong 4301) := by
  have nines := positiveRun_nines 4300
  have length : (List.replicate 4301 '9').length = 4301 := List.length_replicate
  have long : Numeral.maxDigits < (List.replicate 4301 '9').length := by
    rw [length]
    decide
  have number := read_number_overlong _ nines.1 long
  have count := read_count_overlong _ nines.1 long
  have size := read_size_overlong _ nines long
  rw [length] at count size
  refine ⟨?_, number, count, size⟩
  rintro (⟨reading, found⟩ | ⟨rejection, refused⟩)
  · rw [number] at found
    cases found
  · rw [number] at refused
    cases refused

end Tabletop
