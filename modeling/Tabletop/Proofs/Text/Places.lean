/-! Places of a text. A part of a text is given with the number of characters before it, and a slice of
a text by the numbers of characters before its beginning and its end. -/
namespace Tabletop.Text

/-- The part stands in the text behind so many characters. -/
def Placed (text : List Char) (start : Nat) (part : List Char) : Prop := part <+: text.drop start

def slice (text : List Char) (start stop : Nat) : List Char := (text.drop start).take (stop - start)

theorem placed_nil (text : List Char) (start : Nat) : Placed text start [] := List.nil_prefix

theorem placed_append (text : List Char) (start : Nat) (first second : List Char) :
    Placed text start (first ++ second) ↔
      Placed text start first ∧ Placed text (start + first.length) second := by
  unfold Placed
  rw [← List.drop_drop]
  constructor
  · rintro ⟨rest, whole⟩
    rw [List.append_assoc] at whole
    rw [← whole, List.drop_left]
    exact ⟨List.prefix_append _ _, List.prefix_append _ _⟩
  · rintro ⟨⟨rest, whole⟩, behind⟩
    rw [← whole, List.drop_left] at behind
    rw [← whole]
    exact (List.prefix_append_right_inj first).mpr behind

theorem placed_cons (text : List Char) (start : Nat) (c : Char) (rest : List Char) :
    Placed text start (c :: rest) ↔ Placed text start [c] ∧ Placed text (start + 1) rest :=
  placed_append text start [c] rest

theorem Placed.slice (text : List Char) (start : Nat) (part : List Char) (placed : Placed text start part) :
    slice text start (start + part.length) = part := by
  obtain ⟨rest, whole⟩ := placed
  rw [Text.slice, Nat.add_sub_cancel_left, ← whole, List.take_left]

theorem Placed.le (text : List Char) (start : Nat) (part : List Char) (placed : Placed text start part)
    (some : part ≠ []) : start + part.length ≤ text.length := by
  have length := placed.length_le
  have positive := List.length_pos_iff.mpr some
  rw [List.length_drop] at length
  omega

end Tabletop.Text
