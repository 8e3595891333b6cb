/-!
# CardBattle.Fault

What the faults of the game have in common: a code, a message and a severity.

* `Fault`: the faults of one part of the game.
* `answer_iff`: a part is known by what it answers and by its faults.
-/

namespace CardBattle

/-- What can be done about a fault: retry later, change the input, report a defect, or nothing. -/
inductive Severity where
  | recoverable
  | validation
  | internal
  | fatal
deriving DecidableEq

namespace Severity

def name : Severity → String
  | .recoverable => "recoverable"
  | .validation => "validation"
  | .internal => "internal"
  | .fatal => "fatal"

def isRecoverable (s : Severity) : Bool := s = .recoverable

def isInternal (s : Severity) : Bool := s = .internal || s = .fatal

end Severity

class Fault (ε : Type) where
  code : ε → String
  message : ε → String
  severity : ε → Severity

/-- A text between single quotes, as messages show it. -/
def quoted (text : String) : String := "'" ++ text ++ "'"

/-! ## Answers -/

variable {ε α β : Type} {f : α → β} {answer : Except ε α}

theorem map_eq_ok_iff {b : β} : answer.map f = .ok b ↔ ∃ a, answer = .ok a ∧ f a = b := by
  cases answer <;> simp [Except.map]

theorem map_eq_error_iff {e : ε} : answer.map f = .error e ↔ answer = .error e := by
  cases answer <;> simp [Except.map]

/-- An answer is known by what is right and what is wrong, if there is always one of the two. -/
theorem answer_iff {Right : α → Prop} {Wrong : ε → Prop}
    (right : ∀ a, Right a → answer = .ok a) (wrong : ∀ e, Wrong e → answer = .error e)
    (total : (∃ a, Right a) ∨ ∃ e, Wrong e) :
    (∀ a, answer = .ok a ↔ Right a) ∧ ∀ e, answer = .error e ↔ Wrong e := by
  obtain ⟨a, ha⟩ | ⟨e, he⟩ := total
  · refine ⟨fun b => ⟨fun h => ?_, right b⟩, fun e => ⟨fun h => ?_, wrong e⟩⟩
    · rw [right a ha] at h
      cases h
      exact ha
    · rw [right a ha] at h
      cases h
  · refine ⟨fun b => ⟨fun h => ?_, right b⟩, fun d => ⟨fun h => ?_, wrong d⟩⟩
    · rw [wrong e he] at h
      cases h
    · rw [wrong e he] at h
      cases h
      exact he

end CardBattle
