import MotionTemplate.Composition.Scale
import MotionTemplate.Proofs.Double.Monotone

/-! The scale of a display after a run of widths. A width that is no positive number is refused and
leaves no trace, and of the others only the last one counts: the scale is kept from call to call, but
it is always that of the current width. -/
namespace MotionTemplate.ScaleMapper

/-- A width that a container can have. -/
def usableWidth (width : Float) : Bool := width.isFinite && 0 < width

/-- A mapper after it was given a width. If the width is refused, nothing has changed. -/
def resized (m : ScaleMapper) (width : Float) : ScaleMapper :=
  match m.resize width with
  | .ok (next, _) => next
  | .error _ => m

/-- A mapper after it was given widths, one after another. -/
def after (m : ScaleMapper) (widths : List Float) : ScaleMapper := widths.foldl resized m

/-- The last width that can be used; without one, the width of the canvas. -/
def lastWidth (canvas : Size) (widths : List Float) : Float :=
  (widths.filter usableWidth).getLast?.getD canvas.width

/-- What a mapper answers to a next width. -/
structure Answers (m : ScaleMapper) (width : Float) : Prop where
  refused : width.isFinite = false ∨ width ≤ 0 →
    m.resize width = .error (.invalidWidth width) ∧ m.resized width = m
  taken : width.isFinite → 0 < width →
    m.resize width = .ok (m.resized width, decide (width ≠ m.containerWidth))

/-- What is known of a mapper that was given widths. -/
structure Follows (canvas : Size) (widths : List Float) (m : ScaleMapper) : Prop where
  same : m.canvas = canvas
  container : m.container =
    ⟨lastWidth canvas widths, canvas.heightForWidth (lastWidth canvas widths)⟩
  scale : m.scale = lastWidth canvas widths / canvas.width
  untouched : (∀ width ∈ widths, width.isFinite = false ∨ width ≤ 0) →
    m.container.width = canvas.width ∧ m.scale = 1
  answers : ∀ width, m.Answers width

/-- The canvas in a container of a width, with the scale that belongs to it. -/
private def shown (canvas : Size) (width : Float) : ScaleMapper :=
  ⟨canvas, width, width / canvas.width⟩

private theorem usableWidth_eq_true_iff {width : Float} :
    usableWidth width = true ↔ width.isFinite ∧ 0 < width := by
  rw [usableWidth, Bool.and_eq_true, decide_eq_true_iff]

private theorem usableWidth_eq_false {width : Float} (h : width.isFinite = false ∨ width ≤ 0) :
    usableWidth width = false := by
  rw [← Bool.not_eq_true, usableWidth_eq_true_iff]
  rintro ⟨hfinite, hpos⟩
  obtain hinfinite | hle := h
  · exact Bool.false_ne_true (hinfinite.symm.trans hfinite)
  · exact Number.not_le_of_lt hpos hle

section

variable {canvas : Size} {w width : Float}

private theorem new_eq_shown (hw : canvas.width.isFinite ∧ 0 < canvas.width)
    (hh : canvas.height.isFinite ∧ 0 < canvas.height) :
    new canvas = .ok (shown canvas canvas.width) := by
  have hwidth : (0.0 : Float) < canvas.width := hw.2
  have hheight : (0.0 : Float) < canvas.height := hh.2
  have hone : canvas.width / canvas.width = 1.0 := Number.div_self_of_pos hw.2 hw.1
  rw [new, shown, hone]
  simp [hw.1, hh.1, hwidth, hheight]

theorem resize_of_unusable (m : ScaleMapper) (h : usableWidth width = false) :
    m.resize width = .error (.invalidWidth width) := by
  have hnot : (!(width.isFinite && decide (0.0 < width))) = true := by
    rw [Bool.not_eq_true']
    exact h
  rw [resize, if_pos hnot]

/-- A repeated width keeps the scale that is there, which is the right one already. -/
private theorem resize_shown (h : usableWidth width = true) :
    (shown canvas w).resize width = .ok (shown canvas width, decide (width ≠ w)) := by
  have hnot : ¬ (!(width.isFinite && decide (0.0 < width))) = true := by
    rw [Bool.not_eq_true, Bool.not_eq_false']
    exact h
  rw [resize, if_neg hnot, Number.beq_eq_decide (usableWidth_eq_true_iff.1 h).2]
  by_cases heq : width = w
  · subst heq
    simp [shown]
  · simp [shown, heq]

private theorem resized_shown :
    (shown canvas w).resized width = shown canvas (if usableWidth width then width else w) := by
  rw [resized]
  cases h : usableWidth width with
  | true =>
    rw [resize_shown h]
    rfl
  | false =>
    rw [resize_of_unusable _ h]
    rfl

/-- The run: whatever came before, a usable width is what the container has from then on. -/
private theorem after_shown (canvas : Size) (widths : List Float) (w : Float) :
    (shown canvas w).after widths =
      shown canvas ((widths.filter usableWidth).getLast?.getD w) := by
  induction widths generalizing w with
  | nil => rfl
  | cons width rest ih =>
    rw [after, List.foldl_cons, resized_shown]
    change (shown canvas _).after rest = _
    rw [ih]
    cases h : usableWidth width with
    | true =>
      rw [List.filter_cons_of_pos h, List.getLast?_cons, Option.getD_some]
      rfl
    | false =>
      rw [List.filter_cons_of_neg (Bool.not_eq_true _ ▸ h)]
      rfl

private theorem answers_shown : (shown canvas w).Answers width := by
  constructor
  case refused =>
    intro h
    have hunusable := usableWidth_eq_false h
    rw [resized_shown, hunusable]
    exact ⟨resize_of_unusable _ hunusable, rfl⟩
  case taken =>
    intro hfinite hpos
    have husable := usableWidth_eq_true_iff.2 ⟨hfinite, hpos⟩
    rw [resized_shown, if_pos husable]
    exact resize_shown husable

end

/-- A mapper of a canvas that can be shown follows the widths that it is given: it has the last one
that can be used, and the scale of that one. The others it refuses and forgets, and without any it
shows the canvas as it is. It tells a new width from the one it has. -/
theorem follows_widths {canvas : Size} (hw : canvas.width.isFinite ∧ 0 < canvas.width)
    (hh : canvas.height.isFinite ∧ 0 < canvas.height) :
    ∃ m, new canvas = .ok m ∧ ∀ widths, Follows canvas widths (m.after widths) := by
  refine ⟨shown canvas canvas.width, new_eq_shown hw hh, fun widths => ?_⟩
  rw [after_shown]
  refine ⟨rfl, rfl, rfl, fun hunusable => ?_, fun _ => answers_shown⟩
  have hnone : widths.filter usableWidth = [] :=
    List.filter_eq_nil_iff.2 fun width hmem => by simp [usableWidth_eq_false (hunusable width hmem)]
  rw [hnone]
  exact ⟨rfl, Number.div_self_of_pos hw.2 hw.1⟩

/-- A portrait canvas on a display that is made wider and narrower again, between widths that no
display has. -/
theorem portrait_follows_widths :
    ∃ m, new ⟨1080.0, 1920.0⟩ = .ok m ∧
      (m.after [540.0, 0.0 / 0.0, 810.0, 810.0, -1.0, 540.0, 1.0 / 0.0]).scale = 0.5 ∧
      (m.after [0.0, -540.0]).scale = 1 := by
  obtain ⟨m, hm, hfollows⟩ :=
    @follows_widths ⟨1080.0, 1920.0⟩ ⟨by decide, by decide⟩ ⟨by decide, by decide⟩
  refine ⟨m, hm, ?_, ?_⟩
  · rw [(hfollows _).scale]
    decide +kernel
  · refine ((hfollows [0.0, -540.0]).untouched ?_).2
    decide +kernel

end MotionTemplate.ScaleMapper
