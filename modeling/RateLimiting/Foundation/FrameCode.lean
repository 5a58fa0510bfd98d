import Mathlib.Data.List.Basic

/-! # Streams of frames

Frames whose texts tell themselves apart from their first elements on. A stream
then has one longest prefix made of frames. -/

namespace RateLimiting

/-- The text of every frame. No stream starts with the texts of two frames. -/
structure FrameCode (Frame α : Type) where
  wire : Frame → List α
  nonempty : ∀ frame, wire frame ≠ []
  unique : ∀ {left right : Frame} {stream : List α},
    wire left <+: stream → wire right <+: stream → left = right

namespace FrameCode

variable {Frame α : Type} (code : FrameCode Frame α)
  {frame : Frame} {frames : List Frame} {stream last : List α}

def wires (frames : List Frame) : List α :=
  frames.flatMap code.wire

@[simp] theorem wires_nil : code.wires [] = [] := rfl

@[simp] theorem wires_cons :
    code.wires (frame :: frames) = code.wire frame ++ code.wires frames :=
  List.flatMap_cons

/-- Every list of frames that the stream starts with is an initial part of
`frames`. -/
def LongestPrefix (stream : List α) (frames : List Frame) : Prop :=
  code.wires frames <+: stream ∧
    ∀ others, code.wires others <+: stream → others <+: frames

namespace LongestPrefix

variable {code}

theorem nil_iff :
    code.LongestPrefix stream [] ↔ ∀ frame, ¬ code.wire frame <+: stream := by
  constructor
  · intro longest frame starts
    have single : code.wires [frame] <+: stream := by simpa using starts
    have isNil := List.prefix_nil.mp (longest.2 [frame] single)
    exact List.cons_ne_nil frame [] isNil
  · intro without
    refine ⟨List.nil_prefix, fun others starts => ?_⟩
    cases others with
    | nil => exact List.nil_prefix
    | cons other others =>
        rw [wires_cons] at starts
        exact absurd ((List.prefix_append _ _).trans starts) (without other)

theorem cons_iff :
    code.LongestPrefix (code.wire frame ++ last) (frame :: frames) ↔
      code.LongestPrefix last frames := by
  unfold LongestPrefix
  rw [wires_cons, List.prefix_append_right_inj]
  constructor
  · rintro ⟨starts, longest⟩
    refine ⟨starts, fun others othersStart => ?_⟩
    have longer : code.wires (frame :: others) <+: code.wire frame ++ last := by
      rwa [wires_cons, List.prefix_append_right_inj]
    exact (List.cons_prefix_cons.mp (longest _ longer)).2
  · rintro ⟨starts, longest⟩
    refine ⟨starts, fun others othersStart => ?_⟩
    cases others with
    | nil => exact List.nil_prefix
    | cons other others =>
        rw [wires_cons] at othersStart
        have same : other = frame := code.unique
          ((List.prefix_append _ _).trans othersStart) (List.prefix_append _ _)
        subst same
        rw [List.prefix_append_right_inj] at othersStart
        exact List.cons_prefix_cons.mpr ⟨rfl, longest others othersStart⟩

theorem unique {others : List Frame} (first : code.LongestPrefix stream frames)
    (second : code.LongestPrefix stream others) : frames = others := by
  have shorter := second.2 frames first.1
  have longer := first.2 others second.1
  exact shorter.eq_of_length_le longer.length_le

end LongestPrefix

theorem exists_longestPrefix (stream : List α) :
    ∃ frames, code.LongestPrefix stream frames := by
  induction size : stream.length using Nat.strongRecOn generalizing stream with
  | _ size induction =>
      by_cases starting : ∃ frame, code.wire frame <+: stream
      · rcases starting with ⟨frame, last, rfl⟩
        have positive := List.length_pos_of_ne_nil (code.nonempty frame)
        rw [List.length_append] at size
        rcases induction last.length (by omega) last rfl with ⟨frames, longest⟩
        exact ⟨frame :: frames, LongestPrefix.cons_iff.mpr longest⟩
      · exact ⟨[], LongestPrefix.nil_iff.mpr (not_exists.mp starting)⟩

theorem longestPrefix_wires (frames : List Frame) :
    code.LongestPrefix (code.wires frames) frames := by
  induction frames with
  | nil =>
      apply LongestPrefix.nil_iff.mpr
      intro frame starts
      exact code.nonempty frame (List.prefix_nil.mp starts)
  | cons frame frames induction =>
      rw [wires_cons]
      exact LongestPrefix.cons_iff.mpr induction

end FrameCode

end RateLimiting
