import Filing.Form.TemplateReader
import Filing.Proofs.Text.Numbers
import Filing.Proofs.Text.Words

/-!
# What attributes say

Attributes are text. Some are switches, which only certain values turn on, and one names a control
by its number in the table of controls. Which texts these are is said here without the reader.

Main statements: `isDynamic_iff`, `control?_eq_some_iff`.
-/

namespace Filing.TemplateReader

open Filing.Text (IsSpelling WritesNatural maxWord32 natural?_eq_some_iff)
open Filing.Xml (Node)

/-! ## Switches -/

/-- A value turns a switch on if it is a one or the word for it, in small or capital letters. -/
def TurnsOn (value : String) : Prop := value = "1" ∨ IsSpelling "true" value

theorem isTruthy_iff {value : String} : isTruthy value = true ↔ TurnsOn value := by
  have hword : ∀ w ∈ "true".toList, w.toLower = w := by simp
  rw [isTruthy, Bool.or_eq_true, beq_iff_eq, Text.sameIgnoringCase_iff hword, TurnsOn]

theorem isOn_iff {node : Node} {name : String} :
    isOn node name = true ↔ ∃ value ∈ node.filledAttr? name, TurnsOn value := by
  unfold isOn
  cases node.filledAttr? name with
  | none => simp
  | some value => simp [isTruthy_iff]

/-- An element describes rows that repeat, not cells that stand alone. -/
def RepeatsRows (node : Node) : Prop := ∃ value ∈ node.filledAttr? "Dynamic", TurnsOn value

theorem isDynamic_iff {node : Node} : isDynamic node = true ↔ RepeatsRows node := isOn_iff

instance : DecidablePred RepeatsRows := fun _ => decidable_of_iff _ isDynamic_iff

/-! ## Controls -/

theorem code_le_maxWord32 (c : Control) : c.code ≤ maxWord32 := by cases c <;> decide

/-- A code stands for a control exactly if it writes its number. -/
theorem control?_eq_some_iff {code : String} {c : Control} :
    control? code = some c ↔ WritesNatural code c.code := by
  rw [control?, Option.bind_eq_some_iff]
  constructor
  · rintro ⟨n, hn, hc⟩
    rw [Control.code_of_ofCode? hc]
    exact (natural?_eq_some_iff.1 hn).1
  · intro hcode
    exact ⟨c.code, natural?_eq_some_iff.2 ⟨hcode, code_le_maxWord32 c⟩, Control.ofCode?_code c⟩

/-- A code is known if it writes the number of a control. -/
def IsKnownCode (code : String) : Prop := ∃ c : Control, WritesNatural code c.code

theorem control?_isSome_iff {code : String} : (control? code).isSome ↔ IsKnownCode code := by
  rw [Option.isSome_iff_exists]
  exact exists_congr fun _ => control?_eq_some_iff

instance : DecidablePred IsKnownCode := fun _ => decidable_of_iff _ control?_isSome_iff

end Filing.TemplateReader
