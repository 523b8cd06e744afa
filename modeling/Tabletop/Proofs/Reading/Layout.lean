import Tabletop.Proofs.Node.Tokens
import Tabletop.Proofs.Reading.Contract
import Tabletop.Proofs.Reading.Normal
import Tabletop.Proofs.Scanner.Cut

/-! Layout in texts. A text that is read is read in the same way without its layout, and with more layout
at any place that is not within a token; with layout within a token it is refused. -/
namespace Tabletop

def Text.inserted (text : String) (i : Nat) (more : String) : String :=
  String.ofList (text.toList.take i ++ (more.toList ++ text.toList.drop i))

/-- What is read from a derivation depends on its tokens only. -/
theorem read_bare (phrase : Phrase) (text : String) (derives : phrase.Derives text)
    (shallow : phrase.chain.depth ≤ Nesting.limit) :
    read text = read (String.ofList phrase.chain.bare.text) := by
  have bare : (Phrase.mk [] phrase.chain.bare []).Derives (String.ofList phrase.chain.bare.text) := by
    refine ⟨?_, Phrase.layout_nil, phrase.chain.bare_admissible derives.chain, Phrase.layout_nil⟩
    simp [Phrase.text]
  have shallow' : phrase.chain.bare.depth ≤ Nesting.limit := phrase.chain.bare_depth ▸ shallow
  rw [read_complete phrase text derives shallow, read_complete _ _ bare shallow',
    phrase.chain.bare_overlong?, Phrase.Chain.assembly, Phrase.Chain.assembly,
    phrase.chain.bare_assemblyOnto]

theorem Phrase.Derives.bare_text (phrase : Phrase) (text : String) (derives : phrase.Derives text) :
    phrase.chain.bare.text = Text.withoutLayout text.toList := by
  rw [← derives.written, Phrase.text, withoutLayout_append, withoutLayout_append,
    withoutLayout_layout _ derives.before, withoutLayout_layout _ derives.after, List.nil_append,
    List.append_nil, phrase.chain.bare_text derives.chain]

theorem Phrase.Derives.scan_cut (phrase : Phrase) (text : String) (derives : phrase.Derives text)
    (shallow : phrase.chain.depth ≤ Nesting.limit) (convertible : Convertible phrase.chain.conversions)
    (left right layout : List Char) (cut : phrase.chain.Cut left right) (blank : Layout layout)
    (some : layout ≠ []) :
    ∃ expected rest,
      scan (phrase.before ++ (left ++ (layout ++ (right ++ phrase.after)))) =
        .error (.missing expected rest) := by
  have ends := (cut.parted _ left right).ends Text.isLayout _ _ _ []
    (layout ++ (right ++ phrase.after)) (phrase.chain.ends_layout derives.chain [])
  apply scan_unclosed
  rw [Text.dropWhile_run _ _ _ derives.before ends]
  exact scanChain_cut .refusal phrase.chain Nesting.limit layout blank some left right phrase.after cut
    derives.chain convertible shallow

theorem read_missing (text : String) (expected : Expectation) (rest : List Char)
    (missing : Phrase.scan text.toList = .error (.missing expected rest)) :
    ∃ rejection, read text = .error (.rejected rejection) := by
  have refused : ∃ rejection, readPhrase text = .error (.rejected rejection) := by
    unfold readPhrase
    dsimp only
    split
    · exact ⟨_, rfl⟩
    · split
      · exact ⟨_, rfl⟩
      · rw [missing]
        exact ⟨_, rfl⟩
  obtain ⟨rejection, refused⟩ := refused
  exact ⟨rejection, by rw [read, readTree, refused]; rfl⟩

theorem read_inserted_cut (phrase : Phrase) (text : String) (derives : phrase.Derives text)
    (shallow : phrase.chain.depth ≤ Nesting.limit)
    (convertible : Phrase.Convertible phrase.chain.conversions) (i n : Nat) (layout : String)
    (cut : phrase.chain.CutAt n) (place : phrase.before.length + n = i)
    (blank : Phrase.Layout layout.toList) (some : layout.toList ≠ []) :
    ∃ rejection, read (Text.inserted text i layout) = .error (.rejected rejection) := by
  obtain ⟨left, right, cut, rfl⟩ := cut
  have whole : text.toList = (phrase.before ++ left) ++ (right ++ phrase.after) := by
    rw [← derives.written, Phrase.text, (cut.parted _ left right).whole]
    simp
  have position : i = (phrase.before ++ left).length := by
    rw [List.length_append, place]
  obtain ⟨expected, rest, missing⟩ := derives.scan_cut phrase text shallow convertible left right
    layout.toList cut blank some
  apply read_missing _ expected rest
  rw [Text.inserted, String.toList_ofList, whole, position, List.take_left, List.drop_left, ← missing,
    List.append_assoc]

theorem read_inserted_uncut (phrase : Phrase) (text : String) (derives : phrase.Derives text)
    (shallow : phrase.chain.depth ≤ Nesting.limit) (i : Nat) (layout : String) (within : i ≤ text.length)
    (uncut : ¬ ∃ n, phrase.chain.CutAt n ∧ phrase.before.length + n = i)
    (blank : Phrase.Layout layout.toList) :
    read (Text.inserted text i layout) = read text := by
  have whole := (List.take_append_drop i text.toList).symm
  have length : (text.toList.take i).length = i :=
    List.length_take_of_le (by rw [String.length_toList]; exact within)
  rcases derives.cut_or_widens phrase text _ _ layout.toList whole blank with
    ⟨part, cut, place⟩ | ⟨wide, derives', same⟩
  · obtain ⟨rest, cut⟩ := cut
    refine absurd ⟨part.length, ⟨part, rest, cut, rfl⟩, ?_⟩ uncut
    rw [← length, place, List.length_append]
  · have shallow' : wide.chain.depth ≤ Nesting.limit := by
      rw [← wide.chain.bare_depth, same, phrase.chain.bare_depth]
      exact shallow
    rw [Text.inserted, read_bare wide _ derives' shallow', same, ← read_bare phrase text derives shallow]

/-- A text that is read is read in the same way without its layout characters. With layout characters
inserted anywhere it is read if and only if they are not strictly within the span of a number, an
identifier or a dice term of its tree, and then in the same way; otherwise it is refused. -/
theorem read_layout (text : String) (reading : Reading) (found : read text = .ok reading) :
    read (String.ofList (Text.withoutLayout text.toList)) = .ok reading ∧
    ∃ tree, readTree text = .ok tree ∧
      ∀ (i : Nat) (layout : String), i ≤ text.length → layout ≠ "" → Phrase.Layout layout.toList →
        ((∃ other, read (Text.inserted text i layout) = .ok other) ↔ ¬ Node.Splits tree.nodes i) ∧
        (∀ other, read (Text.inserted text i layout) = .ok other → other = reading) ∧
        (Node.Splits tree.nodes i →
          ∃ rejection, read (Text.inserted text i layout) = .error (.rejected rejection)) := by
  obtain ⟨phrase, derives, short, shallow, _⟩ := read_sound text reading found
  have convertible := (read_iff_convertible phrase text derives shallow).mp ⟨reading, found⟩
  have accepted : readTree text = .ok phrase.node := by
    rw [readTree, readPhrase_complete phrase text derives shallow, short]
    rfl
  refine ⟨?_, phrase.node, accepted, ?_⟩
  · rw [← derives.bare_text phrase text, ← read_bare phrase text derives shallow, found]
  intro i layout within nonempty blank
  have some : layout.toList ≠ [] := by
    intro nothing
    exact nonempty (String.toList_inj.mp nothing)
  rw [Phrase.splits_node]
  by_cases split : ∃ n, phrase.chain.CutAt n ∧ phrase.before.length + n = i
  · obtain ⟨n, cut, place⟩ := split
    obtain ⟨rejection, refused⟩ := read_inserted_cut phrase text derives shallow convertible i n layout
      cut place blank some
    rw [refused]
    refine ⟨iff_of_false ?_ ?_, ?_, fun _ => ⟨rejection, rfl⟩⟩
    · rintro ⟨other, impossible⟩
      cases impossible
    · exact not_not_intro ⟨n, cut, place⟩
    · intro other impossible
      cases impossible
  · rw [read_inserted_uncut phrase text derives shallow i layout within split blank, found]
    refine ⟨iff_of_true ⟨reading, rfl⟩ split, ?_, fun impossible => absurd impossible split⟩
    intro other same
    exact (Except.ok.inj same).symm

/-- A dice term is split by a blank, and the layout before it may be more. -/
theorem read_layout_difference :
    read "1 -2d6" = .ok ⟨.binary (.number 1) "-" (.dice ⟨2, ⟨6, by decide⟩, .none, none, none⟩),
      [⟨2, ⟨6, by decide⟩, .none, none, none⟩]⟩ ∧
    read "1-2d6" = read "1 -2d6" ∧ read "1 -\n2d6" = read "1 -2d6" ∧
    ∃ rejection, read "1 -2 d6" = .error (.rejected rejection) := by
  have found : read "1 -2d6" =
      .ok ⟨.binary (.number 1) "-" (.dice ⟨2, ⟨6, by decide⟩, .none, none, none⟩),
        [⟨2, ⟨6, by decide⟩, .none, none, none⟩]⟩ := by decide +kernel
  have digits : ∀ c : Char, c.isDigit = true → Phrase.Digits [c] := fun c digit =>
    Phrase.digits_replicate 1 c digit
  have derives : (Phrase.mk [] (.link (.number false ['1']) ⟨[' '], .minus, []⟩
      (.last (.dice ⟨['2'], .digits ['6'], []⟩))) []).Derives "1 -2d6" := by
    refine ⟨rfl, Phrase.layout_nil, ⟨?_, ⟨Phrase.layout_blank, Phrase.layout_nil⟩, ?_⟩, Phrase.layout_nil⟩
    · exact ⟨by decide, digits '1' (by decide)⟩
    · exact ⟨digits '2' (by decide), ⟨digits '6' (by decide), by decide⟩, by simp, .nil⟩
  have accepted : readTree "1 -2d6" = .ok (Phrase.mk [] (.link (.number false ['1']) ⟨[' '], .minus, []⟩
      (.last (.dice ⟨['2'], .digits ['6'], []⟩))) []).node := by
    rw [readTree, readPhrase_complete _ _ derives (by decide)]
    rfl
  obtain ⟨without, tree, accepted', places⟩ := read_layout "1 -2d6" _ found
  rw [accepted] at accepted'
  obtain rfl := Except.ok.inj accepted'
  have line : Phrase.Layout "\n".toList := List.forall_mem_singleton.mpr (by decide)
  have between := places 3 "\n" (by decide) (by decide) line
  have within := places 4 " " (by decide) (by decide) Phrase.layout_blank
  obtain ⟨other, again⟩ := between.1.mpr (by decide)
  refine ⟨found, without.trans found.symm, ?_, within.2.2 (by decide)⟩
  rw [found, ← between.2.1 other again]
  exact again

end Tabletop
