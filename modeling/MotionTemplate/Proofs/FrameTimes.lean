import MotionTemplate.Proofs.Double.Whole
import MotionTemplate.Proofs.StructuralFlaws
import MotionTemplate.Render.Frame
import MotionTemplate.Render.Plan

/-! The times of the frames. Their number is a product rounded up and their times are quotients, each
of them rounded on its own. A frame may therefore be counted because the product lies a little above
its number, and have the whole duration as its time. -/
namespace MotionTemplate.Composition

open Number

/-- The time of a frame. -/
def frameTime (c : Composition) (k : Nat) : Float := Float.ofNat k / Float.ofNat c.fps

/-- Some frame has the duration as its time: its quotient is rounded to the duration, and the product
of duration and rate to more than its number. -/
def EndsOnFrame (c : Composition) : Prop :=
  ∃ k, c.frameTime k == c.duration ∧ Float.ofNat k < c.duration * Float.ofNat c.fps

variable {c : Composition}

private theorem frameCount_eq_totalFrames (h : c.fps ≠ 0) :
    c.frameCount = (RenderPlan.ofComposition c).totalFrames := by
  have hmax : max c.fps 1 = c.fps := by omega
  rw [frameCount, hmax]
  rfl

private theorem timeline_eq (h : c.fps ≠ 0) (scale : Float) (selector : AnimationSelector Float) :
    c.timeline scale selector =
      (List.range c.frameCount).map fun k => c.frameAt (c.frameTime k) scale selector := by
  have hmax : max c.fps 1 = c.fps := by omega
  rw [timeline, hmax]
  rfl

private theorem map_time_timeline (h : c.fps ≠ 0) (scale : Float)
    (selector : AnimationSelector Float) :
    (c.timeline scale selector).map (·.time) = (List.range c.frameCount).map c.frameTime := by
  rw [timeline_eq h, List.map_map]
  rfl

private theorem lt_frameCount_iff (h : c.fps ≠ 0) {k : Nat} (hk : k < 9007199254740992) :
    k < c.frameCount ↔ Float.ofNat k < c.duration * Float.ofNat c.fps := by
  rw [frameCount_eq_totalFrames h]
  exact lt_ceilCount_iff hk

private theorem frameCount_lt : c.frameCount < 18446744073709551616 := UInt64.toNat_lt _

private theorem one_le_rate (h : c.fps ≠ 0) : 1 ≤ Float.ofNat c.fps :=
  one_le_ofNat (Nat.pos_of_ne_zero h)

private theorem rate_pos (h : c.fps ≠ 0) : 0 < Float.ofNat c.fps :=
  Number.lt_of_lt_of_le (by decide) (one_le_rate h)

private theorem frameTime_zero (h : c.fps ≠ 0) : c.frameTime 0 = 0 := zero_div_of_pos (rate_pos h)

private theorem frameTime_le (h : c.fps ≠ 0) {j k : Nat} (hjk : j ≤ k)
    (hk : k < c.frameCount) : c.frameTime j ≤ c.frameTime k := by
  have hcount := frameCount_lt (c := c)
  exact div_le_div_of_isFinite (ofNat_le_ofNat hjk) (isFinite_ofNat (by omega))
    (isFinite_ofNat (by omega)) (rate_pos h)

section

variable (h : c.fps ≠ 0) (hcount : c.frameCount ≤ 4503599627370496)
include h hcount

/-- Of a timeline that is not too long every quantity is a number. -/
private theorem isFinite_of_lt_frameCount {k : Nat} (hk : k < c.frameCount) :
    c.duration.isFinite ∧ (Float.ofNat c.fps).isFinite := by
  have hlt := (lt_frameCount_iff h (by omega)).1 hk
  have hnot := mt (lt_frameCount_iff h (by decide)).2 (Nat.not_lt.2 hcount)
  have hhigh : c.duration * Float.ofNat c.fps ≤ Float.ofNat 4503599627370496 :=
    (lt_or_le (isFinite_iff.1 (isFinite_ofNat (by decide))).1 (lt_iff.1 hlt).2.1).resolve_left hnot
  have hlow : 0 ≤ c.duration * Float.ofNat c.fps :=
    le_of_lt (Number.lt_of_le_of_lt (ofNat_le_ofNat (m := 0) (Nat.zero_le k)) hlt)
  exact isFinite_of_mul (isFinite_of_le hlow hhigh (isFinite_ofNat (by decide)))

private theorem frameTime_lt {j k : Nat} (hjk : j < k) (hk : k < c.frameCount) :
    c.frameTime j < c.frameTime k :=
  ofNat_div_lt (one_le_rate h) (isFinite_of_lt_frameCount h hcount hk).2 hjk (by omega)

private theorem frameTime_le_duration {k : Nat} (hk : k < c.frameCount) :
    c.frameTime k ≤ c.duration := by
  obtain ⟨hduration, hfps⟩ := isFinite_of_lt_frameCount h hcount hk
  exact ofNat_div_le_of_lt_mul (one_le_rate h) hfps (by omega) hduration
    ((lt_frameCount_iff h (by omega)).1 hk)

/-- A frame with the duration as its time is one of those that are counted. -/
private theorem forall_lt_duration_iff :
    (∀ k < c.frameCount, c.frameTime k < c.duration) ↔ ¬ c.EndsOnFrame := by
  constructor
  · rintro hall ⟨k, htime, hlt⟩
    have hk : k < 9007199254740992 := by
      by_contra hlarge
      have hle : Float.ofNat 4503599627370496 ≤ Float.ofNat k := ofNat_le_ofNat (by omega)
      exact Nat.not_lt.2 hcount ((lt_frameCount_iff h (by decide)).2 (Number.lt_of_le_of_lt hle hlt))
    have hbefore := (lt_iff.1 (hall k ((lt_frameCount_iff h hk).2 hlt))).2.2
    have hat := (beq_iff.1 htime).2.2
    omega
  · intro hno k hk
    obtain ⟨htn, hdn, hle⟩ := le_iff.1 (frameTime_le_duration h hcount hk)
    refine lt_iff.2 ⟨htn, hdn, lt_of_le_of_ne hle fun heq => hno ⟨k, ?_, ?_⟩⟩
    · exact beq_iff.2 ⟨htn, hdn, heq⟩
    · exact (lt_frameCount_iff h (by omega)).1 hk

end

private theorem pairwise_map_range {r : Float → Float → Prop} {f : Nat → Float} {n : Nat}
    (h : ∀ j k, j < k → k < n → r (f j) (f k)) : ((List.range n).map f).Pairwise r :=
  List.pairwise_map.2 <| List.pairwise_lt_range.imp_of_mem fun _ hk hjk =>
    h _ _ hjk (List.mem_range.1 hk)

/-- Beyond 53 bits two frames in a row have the same time. -/
private theorem not_pairwise_lt (hcount : 9007199254740993 < c.frameCount) :
    ¬ ((List.range c.frameCount).map c.frameTime).Pairwise (· < ·) := by
  intro hpairwise
  rw [List.pairwise_map, List.pairwise_iff_getElem] at hpairwise
  have hlt := hpairwise 9007199254740992 9007199254740993 (by rw [List.length_range]; omega)
    (by rw [List.length_range]; exact hcount) (by decide)
  rw [List.getElem_range, List.getElem_range] at hlt
  have hsame : c.frameTime 9007199254740993 = c.frameTime 9007199254740992 := by
    rw [frameTime, frameTime,
      show Float.ofNat 9007199254740993 = Float.ofNat 9007199254740992 by decide]
  rw [hsame] at hlt
  exact Number.lt_irrefl _ hlt

/-- The timeline of a definition that passed validation has the planned frames, each of them the
frame at its number divided by the rate. Their times start at zero and do not fall. Up to `2 ^ 52`
frames they rise, none of them is above the duration, and all of them are below it exactly unless
the duration is the time of a frame whose number the rounded product exceeds. -/
theorem frames_end_before_duration_iff {d : Definition} (h : d.validate = .ok ())
    (custom : Customization) (bounds : DurationBounds) (scale : Float)
    (selector : AnimationSelector Float) :
    let c := Composition.ofDefinition d custom bounds
    let count := (RenderPlan.ofComposition c).totalFrames
    let frames := c.timeline scale selector
    let times := frames.map (·.time)
    frames = (List.range count).map (fun k => c.frameAt (c.frameTime k) scale selector) ∧
    times.head? = (if count = 0 then none else some 0) ∧ times.Pairwise (· ≤ ·) ∧
    (count ≤ 4503599627370496 →
      times.Pairwise (· < ·) ∧ (∀ t ∈ times, t ≤ c.duration) ∧
        ((∀ t ∈ times, t < c.duration) ↔ ¬ c.EndsOnFrame)) ∧
    (9007199254740993 < count → ¬ times.Pairwise (· < ·)) := by
  intro c count frames times
  have hfps : c.fps ≠ 0 := (Definition.validate_eq_ok_iff.1 h).1.fps
  have hcount : c.frameCount = count := frameCount_eq_totalFrames hfps
  have htimes : times = (List.range c.frameCount).map c.frameTime :=
    map_time_timeline hfps scale selector
  rw [htimes, ← hcount]
  refine ⟨timeline_eq hfps scale selector, ?_, ?_, fun hfew => ⟨?_, ?_, ?_⟩, not_pairwise_lt⟩
  · rw [List.head?_map, List.head?_range]
    split
    · rfl
    · exact congrArg some (frameTime_zero hfps)
  · exact pairwise_map_range fun j k hjk hk => frameTime_le hfps hjk.le hk
  · exact pairwise_map_range fun j k hjk hk => frameTime_lt hfps hfew hjk hk
  · simp only [List.forall_mem_map, List.mem_range]
    exact fun k hk => frameTime_le_duration hfps hfew hk
  · simp only [List.forall_mem_map, List.mem_range]
    exact forall_lt_duration_iff hfps hfew

/-- A clip at 25 frames a second. -/
private def clipOf (secs : Float) : Definition :=
  { Definition.new "clip" "Clip" 1080 1920 25 with durationPresets := [secs] }

/-- Two seconds are fifty frames, and the last of them comes before the end. -/
theorem short_clip_frames_end_before_duration :
    (clipOf 2.0).validate = .ok () ∧
      let c := Composition.ofDefinition (clipOf 2.0) .empty .standard
      let times := (c.timeline 1.0 .standard).map (·.time)
      times.length = 50 ∧ times.Pairwise (· < ·) ∧ (∀ t ∈ times, t < 2.0) ∧ ¬ c.EndsOnFrame := by
  have hvalid : (clipOf 2.0).validate = .ok () := by decide +kernel
  obtain ⟨-, -, -, hrise, -⟩ :=
    frames_end_before_duration_iff hvalid .empty .standard 1.0 .standard
  obtain ⟨hpairwise, -, hiff⟩ := hrise (by decide +kernel)
  have hall : ∀ t ∈ ((Composition.ofDefinition (clipOf 2.0) .empty .standard).timeline 1.0
      .standard).map (·.time), t < (2.0 : Float) := by decide +kernel
  exact ⟨hvalid, by decide +kernel, hpairwise, hall, hiff.1 hall⟩

/-- In 2.2 seconds there are 55 frames. The product is rounded to a little more, so that there is
another one, at the end. -/
theorem long_clip_frame_at_duration :
    (clipOf 2.2).validate = .ok () ∧
      let c := Composition.ofDefinition (clipOf 2.2) .empty .standard
      (RenderPlan.ofComposition c).totalFrames = 56 ∧
        ∃ f ∈ c.timeline 1.0 .standard, f.time = c.duration := by
  refine ⟨by decide +kernel, by decide +kernel, _, List.mem_map.2 ⟨55, ?_, rfl⟩, ?_⟩
  · exact List.mem_range.2 (by decide +kernel)
  · decide +kernel

end MotionTemplate.Composition
