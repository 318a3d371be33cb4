import NamedTape.Fault

/-!
# Failures without a text

A foreign failure is made a fault by quoting it. One without a text cannot be quoted: what asking for
the text fails with takes its place, and is foreign again. So only voiced failures become faults.
-/

namespace NamedTape

/-- The failure has a text. -/
def Foreign.Voiced (failure : Foreign) : Prop := ∃ text, failure.text = .ok text

theorem Foreign.voiced_or (failure : Foreign) :
    failure.Voiced ∨ ∃ other, failure.text = .error other := by
  cases h : failure.text with
  | ok text => exact .inl ⟨text, h⟩
  | error other => exact .inr ⟨other, rfl⟩

theorem Foreign.not_voiced_of_text {failure other : Foreign} (h : failure.text = .error other) :
    ¬ failure.Voiced := by
  rintro ⟨text, voiced⟩
  cases h.symm.trans voiced

namespace Raised

/-- What is raised is no foreign failure, or one with a text. -/
def Voiced : Raised → Prop
  | .foreign failure => failure.Voiced
  | .fault _ | .interrupt => True

section quoting

variable {failure other : Foreign}

theorem quoting_of_voiced (h : failure.Voiced) (fault : Fault) :
    quoting failure fault = .fault fault := by
  obtain ⟨text, h⟩ := h
  rw [quoting, h]

theorem quoting_of_text (h : failure.text = .error other) (fault : Fault) :
    quoting failure fault = .foreign other := by
  rw [quoting, h]

/-- What quotes a failure is the fault, or another foreign failure. -/
theorem quoting_cases (failure : Foreign) (fault : Fault) :
    quoting failure fault = .fault fault ∨ ∃ other, quoting failure fault = .foreign other :=
  failure.voiced_or.imp (quoting_of_voiced · fault) fun ⟨other, h⟩ =>
    ⟨other, quoting_of_text h fault⟩

theorem quoting_eq_fault_iff {fault f : Fault} :
    quoting failure fault = .fault f ↔ failure.Voiced ∧ fault = f := by
  obtain voiced | ⟨other, mute⟩ := failure.voiced_or
  · simp [quoting_of_voiced voiced, voiced]
  · simp [quoting_of_text mute, Foreign.not_voiced_of_text mute]

theorem quoting_eq_foreign_iff {fault : Fault} :
    quoting failure fault = .foreign other ↔ failure.text = .error other := by
  obtain ⟨text, voiced⟩ | ⟨_, mute⟩ := failure.voiced_or
  · simp [quoting, voiced]
  · simp [quoting, mute]

end quoting

end Raised

end NamedTape
