import Tabletop.Expr.Outline
import Tabletop.Proofs.Expr.Reassociation
import Tabletop.Roll.Draft

/-! Expressions recovered from their records. A record is read by the names of its fields, whatever their order,
and the links of a chain are chained again behind its first operand. Nothing about an expression is lost in
its record, and records that differ only in the order of fields are of the same expression. -/
namespace Tabletop

namespace Datum

mutual
/-- The same data, with the fields of records looked up by name and not compared in order. -/
inductive Alike : Datum → Datum → Prop
  | null : Alike .null .null
  | int (value : Int) : Alike (.int value) (.int value)
  | text (value : String) : Alike (.text value) (.text value)
  | list (items others : List Datum) (alike : AlikeItems items others) : Alike (.list items) (.list others)
  | record (fields others : List (String × Datum))
      (alike : ∀ name : String, AlikeField (fields.lookup name) (others.lookup name)) :
      Alike (.record fields) (.record others)
inductive AlikeItems : List Datum → List Datum → Prop
  | nil : AlikeItems [] []
  | cons (item other : Datum) (rest others : List Datum) (first : Alike item other)
      (next : AlikeItems rest others) : AlikeItems (item :: rest) (other :: others)
inductive AlikeField : Option Datum → Option Datum → Prop
  | missing : AlikeField none none
  | found (value other : Datum) (alike : Alike value other) : AlikeField (some value) (some other)
end

mutual
theorem Alike.refl (datum : Datum) : Alike datum datum := by
  cases datum with
  | null => exact .null
  | int value => exact .int value
  | text value => exact .text value
  | list items => exact .list items items (AlikeItems.refl items)
  | record fields =>
    apply Alike.record
    intro name
    exact AlikeField.refl name fields
theorem AlikeItems.refl (items : List Datum) : AlikeItems items items := by
  cases items with
  | nil => exact .nil
  | cons item rest => exact .cons item item rest rest (Alike.refl item) (AlikeItems.refl rest)
theorem AlikeField.refl (name : String) (fields : List (String × Datum)) :
    AlikeField (fields.lookup name) (fields.lookup name) := by
  match fields with
  | [] => exact .missing
  | (key, value) :: rest =>
    rw [List.lookup_cons]
    cases name == key with
    | true => exact .found value value (Alike.refl value)
    | false => exact AlikeField.refl name rest
end

def int? : Datum → Option Int
  | .int value => some value
  | _ => none

def text? : Datum → Option String
  | .text value => some value
  | _ => none

def readField {α : Type} (name : String) (reader : Datum → Option α) (datum : Datum) : Option α :=
  (datum.field? name).bind reader

def selection? : Datum → Option (Option (Roll.Policy × Int))
  | .null => some none
  | datum => do
    let policy ← (datum.readField "policy" text?).bind Roll.Policy.ofLabel?
    let count ← datum.readField "count" int?
    return some (policy, count)

def threshold? : Datum → Option (Option Int)
  | .null => some none
  | datum => datum.int?.map some

def draft? (datum : Datum) : Option Roll.Draft := do
  let count ← datum.readField "num_dice" int?
  let size ← datum.readField "die_size" int?
  let explosion ← (datum.readField "exploding" text?).bind Roll.Explosion.ofLabel?
  let selection ← datum.readField "keep_drop" selection?
  let reroll ← datum.readField "reroll" threshold?
  return ⟨count, size, explosion, selection, reroll⟩

def roll? (datum : Datum) : Option Roll := datum.draft?.bind fun draft => draft.check.toOption

mutual
def expr? : Datum → Option Expr
  | .record fields =>
    match (Datum.record fields).readField "type" text? with
    | some "number" => ((Datum.record fields).readField "value" int?).map .number
    | some "dice" => ((Datum.record fields).readField "roll" roll?).map .dice
    | some "function" => do
      let name ← (Datum.record fields).readField "name" text?
      return .call name (← exprAt? "argument" fields)
    | some "chain" => do
      let first ← exprAt? "first" fields
      return (Expr.Sequence.mk first (← linksAt? "rest" fields)).chained
    | _ => none
  | _ => none
def exprAt? (name : String) : List (String × Datum) → Option Expr
  | [] => none
  | (key, value) :: rest => if name == key then value.expr? else exprAt? name rest
def linksAt? (name : String) : List (String × Datum) → Option (List (String × Expr))
  | [] => none
  | (key, value) :: rest => if name == key then value.links? else linksAt? name rest
def links? : Datum → Option (List (String × Expr))
  | .list items => itemLinks? items
  | _ => none
def itemLinks? : List Datum → Option (List (String × Expr))
  | [] => some []
  | item :: rest => do
    let link ← item.link?
    return link :: (← itemLinks? rest)
def link? : Datum → Option (String × Expr)
  | .record fields => do
    let operator ← (Datum.record fields).readField "operator" text?
    return (operator, ← exprAt? "operand" fields)
  | _ => none
end

theorem exprAt?_eq (name : String) (fields : List (String × Datum)) :
    exprAt? name fields = (Datum.record fields).readField name expr? := by
  change _ = (fields.lookup name).bind expr?
  induction fields with
  | nil => rfl
  | cons field rest ih =>
    obtain ⟨key, value⟩ := field
    rw [exprAt?, List.lookup_cons, ih]
    cases name == key <;> rfl

theorem linksAt?_eq (name : String) (fields : List (String × Datum)) :
    linksAt? name fields = (Datum.record fields).readField name links? := by
  change _ = (fields.lookup name).bind links?
  induction fields with
  | nil => rfl
  | cons field rest ih =>
    obtain ⟨key, value⟩ := field
    rw [linksAt?, List.lookup_cons, ih]
    cases name == key <;> rfl

theorem Alike.int?_eq (datum other : Datum) (alike : Alike datum other) : datum.int? = other.int? := by
  cases alike <;> rfl

theorem Alike.text?_eq (datum other : Datum) (alike : Alike datum other) : datum.text? = other.text? := by
  cases alike <;> rfl

theorem Alike.threshold?_eq (datum other : Datum) (alike : Alike datum other) :
    datum.threshold? = other.threshold? := by
  cases alike <;> rfl

theorem AlikeField.bind_eq {α : Type} (reader : Datum → Option α)
    (same : ∀ value value' : Datum, Alike value value' → reader value = reader value')
    (found other : Option Datum) (alike : AlikeField found other) : found.bind reader = other.bind reader := by
  cases alike with
  | missing => rfl
  | found value value' alike => exact same value value' alike

theorem Alike.readField_eq {α : Type} (name : String) (reader : Datum → Option α)
    (same : ∀ value value' : Datum, Alike value value' → reader value = reader value')
    (datum other : Datum) (alike : Alike datum other) :
    datum.readField name reader = other.readField name reader := by
  cases alike with
  | null => rfl
  | int value => rfl
  | text value => rfl
  | list items others alike => rfl
  | record fields others alike => exact AlikeField.bind_eq reader same _ _ (alike name)

theorem Alike.selection?_eq (datum other : Datum) (alike : Alike datum other) :
    datum.selection? = other.selection? := by
  have policy := Alike.readField_eq "policy" text? Alike.text?_eq datum other alike
  have count := Alike.readField_eq "count" int? Alike.int?_eq datum other alike
  cases alike with
  | null => rfl
  | int value => rfl
  | text value => rfl
  | list items others alike => rfl
  | record fields others alike => simp only [selection?, policy, count]

theorem Alike.roll?_eq (datum other : Datum) (alike : Alike datum other) : datum.roll? = other.roll? := by
  have count := Alike.readField_eq "num_dice" int? Alike.int?_eq datum other alike
  have size := Alike.readField_eq "die_size" int? Alike.int?_eq datum other alike
  have explosion := Alike.readField_eq "exploding" text? Alike.text?_eq datum other alike
  have selection := Alike.readField_eq "keep_drop" selection? Alike.selection?_eq datum other alike
  have reroll := Alike.readField_eq "reroll" threshold? Alike.threshold?_eq datum other alike
  simp only [roll?, draft?, count, size, explosion, selection, reroll]

mutual
theorem Alike.read_eq (datum other : Datum) (alike : Alike datum other) :
    datum.expr? = other.expr? ∧ datum.links? = other.links? ∧ datum.link? = other.link? := by
  match alike with
  | .null => exact ⟨rfl, rfl, rfl⟩
  | .int value => exact ⟨rfl, rfl, rfl⟩
  | .text value => exact ⟨rfl, rfl, rfl⟩
  | .list items others items_alike => exact ⟨rfl, AlikeItems.itemLinks?_eq items others items_alike, rfl⟩
  | .record fields others fields_alike =>
    have records := Alike.record fields others fields_alike
    have kind := Alike.readField_eq "type" text? Alike.text?_eq _ _ records
    have value := Alike.readField_eq "value" int? Alike.int?_eq _ _ records
    have roll := Alike.readField_eq "roll" roll? Alike.roll?_eq _ _ records
    have name := Alike.readField_eq "name" text? Alike.text?_eq _ _ records
    have operator := Alike.readField_eq "operator" text? Alike.text?_eq _ _ records
    have expr (field : String) : exprAt? field fields = exprAt? field others := by
      rw [exprAt?_eq, exprAt?_eq]
      exact (AlikeField.read_eq _ _ (fields_alike field)).1
    have links (field : String) : linksAt? field fields = linksAt? field others := by
      rw [linksAt?_eq, linksAt?_eq]
      exact (AlikeField.read_eq _ _ (fields_alike field)).2
    refine ⟨?_, rfl, ?_⟩
    · simp only [expr?, kind, value, roll, name, expr, links]
    · simp only [link?, operator, expr]
theorem AlikeItems.itemLinks?_eq (items others : List Datum) (alike : AlikeItems items others) :
    itemLinks? items = itemLinks? others := by
  match alike with
  | .nil => rfl
  | .cons item other rest others first next =>
    rw [itemLinks?, itemLinks?, (Alike.read_eq item other first).2.2, AlikeItems.itemLinks?_eq rest others next]
theorem AlikeField.read_eq (value other : Option Datum) (alike : AlikeField value other) :
    value.bind expr? = other.bind expr? ∧ value.bind links? = other.bind links? := by
  match alike with
  | .missing => exact ⟨rfl, rfl⟩
  | .found value other alike =>
    have read := Alike.read_eq value other alike
    exact ⟨read.1, read.2.1⟩
end

end Datum

theorem Roll.Selection.selection?_outline (selection : Roll.Selection) :
    selection.outline.selection? = some (some (selection.policy, (selection.count.val : Int))) := by
  have policy : (selection.outline.readField "policy" Datum.text?).bind Roll.Policy.ofLabel? =
      some selection.policy := selection.policy.ofLabel?_label
  have count : selection.outline.readField "count" Datum.int? = some (selection.count.val : Int) := rfl
  change (do
    let policy ← (selection.outline.readField "policy" Datum.text?).bind Roll.Policy.ofLabel?
    let count ← selection.outline.readField "count" Datum.int?
    some (some (policy, count))) = _
  rw [policy, count]
  rfl

theorem Roll.draft?_outline (roll : Roll) : roll.outline.draft? = some roll.draft := by
  have count : roll.outline.readField "num_dice" Datum.int? = some (roll.count : Int) := rfl
  have size : roll.outline.readField "die_size" Datum.int? = some (roll.size.val : Int) := rfl
  have explosion : (roll.outline.readField "exploding" Datum.text?).bind Roll.Explosion.ofLabel? =
      some roll.explosion := roll.explosion.ofLabel?_label
  have selection : roll.outline.readField "keep_drop" Datum.selection? = some roll.draft.selection := by
    change ((roll.selection.map Selection.outline).getD .null).selection? = _
    cases selected : roll.selection with
    | none => simp [Datum.selection?, draft, selected]
    | some selection => simp [draft, selected, selection.selection?_outline]
  have reroll : roll.outline.readField "reroll" Datum.threshold? = some roll.draft.reroll := by
    change ((roll.reroll.map fun threshold => Datum.int threshold.val).getD .null).threshold? = _
    cases rerolled : roll.reroll <;> simp [Datum.threshold?, Datum.int?, draft, rerolled]
  rw [Datum.draft?, count, size, explosion, selection, reroll]
  rfl

theorem Roll.roll?_outline (roll : Roll) : roll.outline.roll? = some roll := by
  rw [Datum.roll?, roll.draft?_outline, Option.bind_some, roll.check_draft]
  rfl

namespace Expr
open Datum

theorem expr?_outlineChain (first : Datum) (value : Expr) (items : List Datum) (links : List (String × Expr))
    (found : first.expr? = some value) (read : itemLinks? items = some links) :
    (outlineChain first items).expr? = some (Sequence.mk value links).chained := by
  cases items with
  | nil =>
    cases read
    exact found
  | cons item rest =>
    have kind : (Datum.record
        [("type", .text "chain"), ("first", first), ("rest", .list (item :: rest))]).readField "type" text? =
        some "chain" := rfl
    have begun : exprAt? "first" [("type", .text "chain"), ("first", first), ("rest", .list (item :: rest))] =
        some value := by
      rw [exprAt?_eq]
      exact found
    have linked : linksAt? "rest" [("type", .text "chain"), ("first", first), ("rest", .list (item :: rest))] =
        some links := by
      rw [linksAt?_eq]
      exact read
    simp only [outlineChain, expr?, kind, begun, linked]
    rfl

theorem link?_outlineLink (operator : String) (operand : Datum) (value : Expr)
    (found : operand.expr? = some value) :
    (outlineLink operator operand).link? = some (operator, value) := by
  have named : (outlineLink operator operand).readField "operator" text? = some operator := rfl
  have taken : exprAt? "operand" [("operator", .text operator), ("operand", operand)] = some value := by
    rw [exprAt?_eq]
    exact found
  rw [outlineLink] at named ⊢
  rw [link?, named, taken]
  rfl

/-- The record of an expression with links behind it is read back as the chain of them. -/
theorem expr?_outlineWith (expr : Expr) (items : List Datum) (links : List (String × Expr))
    (read : itemLinks? items = some links) :
    (expr.outlineWith items).expr? = some (Sequence.mk expr links).chained := by
  induction expr generalizing items links with
  | number value =>
    apply expr?_outlineChain _ _ _ _ _ read
    rfl
  | dice roll =>
    apply expr?_outlineChain _ _ _ _ _ read
    have rolled : (Datum.record [("type", .text "dice"), ("roll", roll.outline)]).readField "roll" roll? =
        some roll := roll.roll?_outline
    have kind : (Datum.record [("type", .text "dice"), ("roll", roll.outline)]).readField "type" text? =
        some "dice" := rfl
    simp only [expr?, kind, rolled]
    rfl
  | binary left operator right left_ih right_ih =>
    have operand := right_ih [] [] rfl
    apply left_ih _ ((operator, right) :: links)
    rw [itemLinks?, link?_outlineLink operator _ right operand, read]
    rfl
  | call name argument ih =>
    apply expr?_outlineChain _ _ _ _ _ read
    have inner : exprAt? "argument"
        [("type", .text "function"), ("name", .text name), ("argument", argument.outlineWith [])] =
        some argument := by
      rw [exprAt?_eq]
      exact ih [] [] rfl
    have kind : (Datum.record [("type", .text "function"), ("name", .text name),
        ("argument", argument.outlineWith [])]).readField "type" text? = some "function" := rfl
    have named : (Datum.record [("type", .text "function"), ("name", .text name),
        ("argument", argument.outlineWith [])]).readField "name" text? = some name := rfl
    simp only [expr?, kind, named, inner]
    rfl

theorem expr?_outline (expr : Expr) : expr.outline.expr? = some expr := expr.expr?_outlineWith [] [] rfl

/-- Records are decoded to the expressions they are of: the chains are folded over their first operands.
Two expressions with equal records, or with records that differ in the order of fields only, are equal. -/
theorem outline_lossless :
    (∀ expr : Expr, expr.outline.expr? = some expr) ∧
      ∀ expr other : Expr,
        (expr.outline = other.outline ↔ expr = other) ∧ (expr.outline.Alike other.outline ↔ expr = other) := by
  refine ⟨expr?_outline, ?_⟩
  intro expr other
  have recovered (alike : expr.outline.Alike other.outline) : expr = other := by
    have read := (Alike.read_eq _ _ alike).1
    rw [expr?_outline, expr?_outline] at read
    exact Option.some.inj read
  refine ⟨⟨?_, congrArg outline⟩, ⟨recovered, ?_⟩⟩
  · intro same
    apply recovered
    rw [same]
    exact Alike.refl _
  · intro same
    rw [same]
    exact Alike.refl _

end Expr
end Tabletop
