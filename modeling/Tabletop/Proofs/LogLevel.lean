import Tabletop.LogLevel
import Tabletop.Proofs.Text.Capital
import Tabletop.Proofs.Text.Runs

/-! Names of levels. A level is read from the texts that are its name up to the blanks around them and
up to their full capital forms. -/
namespace Tabletop.LogLevel

def names : List String :=
  ["CRITICAL", "FATAL", "ERROR", "WARN", "WARNING", "INFO", "DEBUG", "NOTSET"]

/-- A text without the blanks around it, in its full capital form. -/
def normal (text : String) : String :=
  String.ofList ((Text.trim Text.isBlank text.toList).flatMap Text.fullCapital)

theorem ofLabel?_eq_some (text : String) (level : LogLevel) :
    ofLabel? text = some level ↔ text = level.label := by
  constructor
  · intro found
    unfold ofLabel? at found
    split at found <;> cases found <;> rfl
  · rintro rfl
    exact ofLabel?_label level

def all : List LogLevel := [.critical, .fatal, .error, .warn, .warning, .info, .debug, .notset]

theorem mem_all (level : LogLevel) : level ∈ all := by
  cases level <;> decide

theorem mem_names (text : String) : text ∈ names ↔ ∃ level : LogLevel, level.label = text := by
  rw [show names = all.map label by decide, List.mem_map]
  simp only [mem_all, true_and]

theorem label_basic (level : LogLevel) : ∀ c ∈ level.label.toList, c.isUpper = true := by
  rw [← List.all_eq_true]
  cases level <;> rfl

theorem normal_label (level : LogLevel) : normal level.label = level.label := by
  have blankless : ∀ c ∈ level.label.toList, Text.isBlank c = false := by
    intro c member
    have bounds := Text.bounds_of_isUpper c (label_basic level c member)
    exact Text.isBlank_of_graphic c (by omega) (by omega)
  rw [normal, Text.trim_of_avoids _ _ blankless, Text.flatMap_fullCapital _ (label_basic level),
    String.ofList_toList]

/-- A level is read from the texts whose normal form is its name. -/
theorem read?_eq_some (text : String) (level : LogLevel) :
    read? text = some level ↔ normal text = level.label := by
  have letters := Text.flatMap_capital_iff (Text.trim Text.isBlank text.toList) level.label.toList
    (label_basic level)
  rw [read?, ofLabel?_eq_some, normal, ← String.toList_inj, ← String.toList_inj, String.toList_ofList,
    String.toList_ofList]
  exact letters

/-- A long s and a wide blank are as good as the plain ones. -/
example : read? "\u2003notſet " = some .notset := by decide +kernel

end Tabletop.LogLevel
