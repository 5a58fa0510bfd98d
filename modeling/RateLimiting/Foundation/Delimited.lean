/-! # Delimited texts

Two texts joined by a delimiter. A part that does not hold the delimiter is read
back; between two parts that may hold it, the boundary can move. -/

namespace RateLimiting

namespace Delimited

variable {α : Type} {delimiter : α} {left right left' right' : List α}

/-- Equal texts have equal parts, or the boundary of one is inside a part of the
other. -/
theorem join_eq_iff :
    left ++ delimiter :: right = left' ++ delimiter :: right' ↔
      (left = left' ∧ right = right') ∨
      (∃ middle, left' = left ++ delimiter :: middle ∧
        right = middle ++ delimiter :: right') ∨
      (∃ middle, left = left' ++ delimiter :: middle ∧
        right' = middle ++ delimiter :: right) := by
  constructor
  · intro same
    rcases List.append_eq_append_iff.mp same with
      ⟨between, extended, rest⟩ | ⟨between, extended, rest⟩
    · cases between with
      | nil => exact .inl ⟨by simpa using extended.symm, by simpa using rest⟩
      | cons first middle =>
          rw [List.cons_append, List.cons.injEq] at rest
          exact .inr (.inl ⟨middle, rest.1 ▸ extended, rest.2⟩)
    · cases between with
      | nil => exact .inl ⟨by simpa using extended, by simpa using rest.symm⟩
      | cons first middle =>
          rw [List.cons_append, List.cons.injEq] at rest
          exact .inr (.inr ⟨middle, rest.1 ▸ extended, rest.2⟩)
  · rintro (⟨rfl, rfl⟩ | ⟨middle, rfl, rfl⟩ | ⟨middle, rfl, rfl⟩) <;> simp

theorem join_inj (plain : delimiter ∉ right) (plain' : delimiter ∉ right') :
    left ++ delimiter :: right = left' ++ delimiter :: right' ↔
      left = left' ∧ right = right' := by
  rw [join_eq_iff]
  constructor
  · rintro (same | ⟨middle, _, rfl⟩ | ⟨middle, _, rfl⟩)
    · exact same
    · exact absurd (by simp) plain
    · exact absurd (by simp) plain'
  · exact .inl

end Delimited

end RateLimiting
