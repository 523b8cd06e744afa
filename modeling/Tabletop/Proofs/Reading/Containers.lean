import Tabletop.Expr.Outline
import Tabletop.Proofs.Expr.Recovery
import Tabletop.Proofs.Reading.Normal

/-! Containers within containers. The record of an expression that was read is only as deep as its calls make
it: the operands of a chain stand side by side in one list, however many they are, and none of them is a chain
itself. -/
namespace Tabletop

namespace Datum

mutual
/-- How many records and lists stand within each other. -/
def depth : Datum → Nat
  | .list items => depthAmong items + 1
  | .record fields => depthWithin fields + 1
  | _ => 0
def depthAmong : List Datum → Nat
  | [] => 0
  | item :: rest => max item.depth (depthAmong rest)
def depthWithin : List (String × Datum) → Nat
  | [] => 0
  | (_, value) :: rest => max value.depth (depthWithin rest)
end

mutual
def parts : Datum → List Datum
  | .list items => .list items :: partsAmong items
  | .record fields => .record fields :: partsWithin fields
  | datum => [datum]
def partsAmong : List Datum → List Datum
  | [] => []
  | item :: rest => item.parts ++ partsAmong rest
def partsWithin : List (String × Datum) → List Datum
  | [] => []
  | (_, value) :: rest => value.parts ++ partsWithin rest
end

def IsChainRecord (datum : Datum) : Prop := datum.readField "type" text? = some "chain"

def PlainLink (link : Datum) : Prop := ∃ operand, link.field? "operand" = some operand ∧ ¬ operand.IsChainRecord

def PlainChain (datum : Datum) : Prop :=
  ∃ first links, datum.field? "first" = some first ∧ ¬ first.IsChainRecord ∧
    datum.field? "rest" = some (.list links) ∧ ∀ link ∈ links, link.PlainLink

/-- All chains within a datum are plain. -/
def Flat (datum : Datum) : Prop := ∀ part ∈ datum.parts, part.IsChainRecord → part.PlainChain

theorem depthAmong_le (items : List Datum) (bound : Nat) :
    depthAmong items ≤ bound ↔ ∀ item ∈ items, item.depth ≤ bound := by
  induction items with
  | nil => simp [depthAmong]
  | cons item rest ih => rw [depthAmong, Nat.max_le, ih, List.forall_mem_cons]

theorem partsWithin_eq (fields : List (String × Datum)) : partsWithin fields = partsAmong (fields.map (·.2)) := by
  induction fields with
  | nil => rfl
  | cons field rest ih => rw [partsWithin, ih, List.map_cons, partsAmong]

theorem forall_partsAmong (P : Datum → Prop) (items : List Datum) :
    (∀ part ∈ partsAmong items, P part) ↔ ∀ item ∈ items, ∀ part ∈ item.parts, P part := by
  induction items with
  | nil => simp [partsAmong]
  | cons item rest ih => rw [partsAmong, List.forall_mem_append, ih, List.forall_mem_cons]

theorem flat_list (items : List Datum) : (Datum.list items).Flat ↔ ∀ item ∈ items, item.Flat := by
  rw [Flat, parts, List.forall_mem_cons, forall_partsAmong]
  exact and_iff_right fun chain => absurd chain (by simp [IsChainRecord, readField, field?])

theorem flat_record (fields : List (String × Datum)) :
    (Datum.record fields).Flat ↔
      ((Datum.record fields).IsChainRecord → (Datum.record fields).PlainChain) ∧
        ∀ field ∈ fields, field.2.Flat := by
  rw [Flat, parts, List.forall_mem_cons, partsWithin_eq, forall_partsAmong, List.forall_mem_map]
  rfl

theorem flat_int (value : Int) : (Datum.int value).Flat := by
  simp [Flat, parts, IsChainRecord, readField, field?]

theorem flat_text (value : String) : (Datum.text value).Flat := by
  simp [Flat, parts, IsChainRecord, readField, field?]

theorem flat_null : Datum.null.Flat := by
  simp [Flat, parts, IsChainRecord, readField, field?]

end Datum

theorem Roll.depth_outline (roll : Roll) : roll.outline.depth ≤ 2 := by
  obtain ⟨count, size, explosion, selection, reroll⟩ := roll
  cases selection <;> cases reroll <;>
    simp [Roll.outline, Roll.Selection.outline, Datum.depth, Datum.depthWithin]

theorem Roll.flat_outline (roll : Roll) : roll.outline.Flat := by
  obtain ⟨count, size, explosion, selection, reroll⟩ := roll
  cases selection <;> cases reroll <;>
    simp [Roll.outline, Roll.Selection.outline, Datum.flat_record, Datum.flat_text, Datum.flat_int,
      Datum.flat_null, Datum.IsChainRecord, Datum.readField, Datum.field?, List.lookup_cons]

namespace Expr
open Datum

theorem depth_outlineChain (first : Datum) (items : List Datum) (bound : Nat) (short : first.depth < bound)
    (links : ∀ item ∈ items, item.depth + 2 ≤ bound) : (outlineChain first items).depth ≤ bound := by
  cases items with
  | nil => exact Nat.le_of_lt short
  | cons item rest =>
    have listed : depthAmong (item :: rest) ≤ bound - 2 := by
      rw [depthAmong_le]
      intro link member
      have := links link member
      omega
    have some := links item (List.mem_cons_self ..)
    simp only [outlineChain, Datum.depth, depthWithin]
    omega

theorem flat_outlineChain (first : Datum) (items : List Datum) (plain : ¬ first.IsChainRecord) (flat : first.Flat)
    (links : ∀ item ∈ items, item.PlainLink ∧ item.Flat) : (outlineChain first items).Flat := by
  cases items with
  | nil => exact flat
  | cons item rest =>
    have chained : (Datum.record
        [("type", .text "chain"), ("first", first), ("rest", .list (item :: rest))]).PlainChain :=
      ⟨first, item :: rest, rfl, plain, rfl, fun link member => (links link member).1⟩
    have listed := (flat_list (item :: rest)).mpr fun link member => (links link member).2
    exact (flat_record _).mpr ⟨fun _ => chained, by simp [flat_text, flat, listed]⟩

theorem not_isChainRecord (expr : Expr) (operand : ¬ expr.IsOperation) : ¬ expr.outline.IsChainRecord := by
  cases expr with
  | binary left operator right => exact absurd trivial operand
  | number value => simp [outline, outlineWith, outlineChain, IsChainRecord, readField, field?, text?]
  | dice roll => simp [outline, outlineWith, outlineChain, IsChainRecord, readField, field?, text?]
  | call name argument => simp [outline, outlineWith, outlineChain, IsChainRecord, readField, field?, text?]

theorem outlineLink_plain (operator : String) (operand : Expr) (alone : ¬ operand.IsOperation) :
    (outlineLink operator operand.outline).PlainLink :=
  ⟨operand.outline, rfl, operand.not_isChainRecord alone⟩

theorem outlineLink_flat (operator : String) (operand : Datum) (flat : operand.Flat) :
    (outlineLink operator operand).Flat := by
  rw [outlineLink, flat_record]
  exact ⟨by simp [IsChainRecord, readField, field?, List.lookup_cons], by simp [flat_text, flat]⟩

theorem depth_outlineLink (operator : String) (operand : Datum) :
    (outlineLink operator operand).depth = operand.depth + 1 := by
  simp [outlineLink, Datum.depth, depthWithin]

theorem outlineWith_operand (expr : Expr) (operand : ¬ expr.IsOperation) (items : List Datum) :
    expr.outlineWith items = outlineChain expr.outline items := by
  cases expr with
  | binary left operator right => exact absurd trivial operand
  | number value => rfl
  | dice roll => rfl
  | call name argument => rfl

theorem depth_call (name : String) (argument : Expr) :
    (call name argument).outline.depth = argument.outline.depth + 1 := by
  simp [outline, outlineWith, outlineChain, Datum.depth, depthWithin]

theorem flat_call (name : String) (argument : Expr) (flat : argument.outline.Flat) :
    (call name argument).outline.Flat := by
  rw [outline] at flat
  simp [outline, outlineWith, outlineChain, flat_record, flat_text, flat, IsChainRecord, readField, field?, text?]

theorem depth_outlineWith_operand (expr : Expr) (operand : ¬ expr.IsOperation) (items : List Datum) (bound : Nat)
    (short : expr.outline.depth ≤ 4 * expr.depth + 3) (room : 4 * expr.depth + 6 ≤ bound)
    (links : ∀ item ∈ items, item.depth + 2 ≤ bound) : (expr.outlineWith items).depth ≤ bound := by
  rw [expr.outlineWith_operand operand]
  exact depth_outlineChain _ items bound (by omega) links

/-- The links that take up an expression stand beside its own, and no deeper than those may stand. -/
theorem depth_outlineWith (expr : Expr) (leans : expr.LeftLeaning) :
    (¬ expr.IsOperation → expr.outline.depth ≤ 4 * expr.depth + 3) ∧
      ∀ (items : List Datum) (bound : Nat), 4 * expr.depth + 6 ≤ bound →
        (∀ item ∈ items, item.depth + 2 ≤ bound) → (expr.outlineWith items).depth ≤ bound := by
  induction expr with
  | number value =>
    have short : (number value).outline.depth ≤ 3 := by
      simp [outline, outlineWith, outlineChain, Datum.depth, depthWithin]
    exact ⟨fun _ => short, fun items bound => depth_outlineWith_operand _ id items bound short⟩
  | dice roll =>
    have short : (dice roll).outline.depth ≤ 3 := by
      have inside := roll.depth_outline
      simp only [outline, outlineWith, outlineChain, Datum.depth, depthWithin]
      omega
    exact ⟨fun _ => short, fun items bound => depth_outlineWith_operand _ id items bound short⟩
  | call name argument ih =>
    have inside := (ih leans).2 [] _ (Nat.le_refl _) (by simp)
    have short : (call name argument).outline.depth ≤ 4 * (call name argument).depth + 3 := by
      rw [depth_call, outline, Expr.depth]
      omega
    exact ⟨fun _ => short, fun items bound => depth_outlineWith_operand _ id items bound short⟩
  | binary left operator right left_ih right_ih =>
    obtain ⟨left_leans, right_leans, operand⟩ := leans
    refine ⟨fun alone => absurd trivial alone, ?_⟩
    intro items bound room links
    rw [Expr.depth] at room
    have short := (right_ih right_leans).1 operand
    -- The right operand joins the links that the left side is taken up by, so the bound stays the same.
    rw [outlineWith]
    apply (left_ih left_leans).2
    · omega
    · rw [List.forall_mem_cons, depth_outlineLink]
      rw [outline] at short
      exact ⟨by omega, links⟩

theorem flat_outlineWith_operand (expr : Expr) (operand : ¬ expr.IsOperation) (flat : expr.outline.Flat)
    (items : List Datum) (links : ∀ item ∈ items, item.PlainLink ∧ item.Flat) :
    (expr.outlineWith items).Flat := by
  rw [expr.outlineWith_operand operand]
  exact flat_outlineChain _ items (expr.not_isChainRecord operand) flat links

theorem flat_outlineWith (expr : Expr) (leans : expr.LeftLeaning) (items : List Datum)
    (links : ∀ item ∈ items, item.PlainLink ∧ item.Flat) : (expr.outlineWith items).Flat := by
  induction expr generalizing items with
  | number value =>
    have flat : (number value).outline.Flat := by
      simp [outline, outlineWith, outlineChain, flat_record, flat_text, flat_int, IsChainRecord, readField, field?,
        text?]
    exact flat_outlineWith_operand _ id flat items links
  | dice roll =>
    have flat : (dice roll).outline.Flat := by
      simp [outline, outlineWith, outlineChain, flat_record, flat_text, roll.flat_outline, IsChainRecord,
        readField, field?, text?]
    exact flat_outlineWith_operand _ id flat items links
  | call name argument ih =>
    have flat := flat_call name argument (ih leans [] (by simp))
    exact flat_outlineWith_operand _ id flat items links
  | binary left operator right left_ih right_ih =>
    obtain ⟨left_leans, right_leans, operand⟩ := leans
    have flat : right.outline.Flat := right_ih right_leans [] (by simp)
    rw [outlineWith]
    apply left_ih left_leans
    rw [List.forall_mem_cons]
    exact ⟨⟨outlineLink_plain operator right operand, outlineLink_flat operator _ flat⟩, links⟩

end Expr

/-- The record of what was read is at most as deep as four containers for each call within another and six more,
however many operators there are, and neither the first operand of a chain nor any behind it is a chain. -/
theorem read_outline_depth (text : String) (reading : Reading) (found : read text = .ok reading) :
    reading.expression.outline.depth ≤ 4 * reading.expression.depth + 6 ∧
    reading.expression.outline.depth ≤ 86 ∧
    ∀ part ∈ reading.expression.outline.parts, part.IsChainRecord → part.PlainChain := by
  obtain ⟨settled, _⟩ := read_settled text reading found
  have bounded := (reading.expression.depth_outlineWith settled.leans).2 [] _ (Nat.le_refl _) (by simp)
  have shallow : reading.expression.depth ≤ 20 := settled.shallow
  refine ⟨bounded, ?_, ?_⟩
  · rw [Expr.outline]
    omega
  · exact reading.expression.flat_outlineWith settled.leans [] (by simp)

/-- The bound is reached with one call, and more operators do not go beyond it. -/
theorem read_outline_depth_call :
    ∃ reading, read "1 + f(2 + d6kh1) - f(3) - 4" = .ok reading ∧ reading.expression.depth = 1 ∧
      reading.expression.outline.depth = 10 ∧ reading.expression.outline.depth ≤ 4 * reading.expression.depth + 6 ∧
      ∀ part ∈ reading.expression.outline.parts, part.IsChainRecord → part.PlainChain := by
  let roll : Roll := ⟨1, ⟨6, by decide⟩, .none, some ⟨.keepHighest, ⟨1, by decide⟩⟩, none⟩
  let argument : Expr := .binary (.number 2) "+" (.dice roll)
  let sum : Expr := .binary (.number 1) "+" (.call "f" argument)
  let reading : Reading := ⟨.binary (.binary sum "-" (.call "f" (.number 3))) "-" (.number 4), [roll]⟩
  have found : read "1 + f(2 + d6kh1) - f(3) - 4" = .ok reading := by decide +kernel
  obtain ⟨bounded, _, flat⟩ := read_outline_depth _ reading found
  exact ⟨reading, found, rfl, by decide +kernel, bounded, flat⟩

end Tabletop
