import MotionTemplate.Clock
import MotionTemplate.Proofs.Double.Monotone

/-! The reading of a clock over a run of calls. It follows the count of nanoseconds, which falls
only where a step takes it over the end of its word: then the clock starts again from below. -/
namespace MotionTemplate

/-- What can be done to a clock. Its copies share one count, so that it makes no difference through
which of them a call is made. -/
inductive ClockCall where
  | advance (secs : Float)
  | set (secs : Float)
deriving DecidableEq

namespace Clock
open Number

def act (c : Clock) : ClockCall → Clock
  | .advance secs => c.advance secs
  | .set secs => c.set secs

/-- A step that takes the count over the end of its word. -/
def Wraps (c : Clock) : ClockCall → Prop
  | .advance secs =>
    secs.isFinite ∧ 0 < secs ∧ 2 ^ 64 ≤ c.nanos.toNat + (secsToNanos secs).toNat
  | .set _ => False

/-- No call of a run takes the count over the end of its word. -/
def NeverWraps (c : Clock) : List ClockCall → Prop
  | [] => True
  | call :: rest => ¬ c.Wraps call ∧ (c.act call).NeverWraps rest

/-- No call of a run takes the count over the end of its word and shows in the reading. What is lost
there may be too little for that: two counts next to each other have the same reading when they
are large. -/
def NeverLoses (c : Clock) : List ClockCall → Prop
  | [] => True
  | call :: rest => (c.Wraps call → (c.act call).now = c.now) ∧ (c.act call).NeverLoses rest

/-- The count is at least as large after each call of a run as before it. -/
def CountsOn (c : Clock) : List ClockCall → Prop
  | [] => True
  | call :: rest => c.nanos ≤ (c.act call).nanos ∧ (c.act call).CountsOn rest

/-- The reading is at least as large after each call of a run as before it. -/
def NeverBack (c : Clock) : List ClockCall → Prop
  | [] => True
  | call :: rest => c.now ≤ (c.act call).now ∧ (c.act call).NeverBack rest

variable {c d : Clock} {call : ClockCall}

/-- A larger count has no smaller reading. -/
theorem now_le_now (h : c.nanos ≤ d.nanos) : c.now ≤ d.now := by
  apply div_le_div_of_le
  · exact toFloat_le_toFloat h
  · decide
  · decide

theorem hasSign_now (c : Clock) : HasSign .positive (form c.now) :=
  hasSign_div (hasSign_toFloat c.nanos) (by decide) (by decide)

theorem nanos_le_of_not_wraps (h : ¬ c.Wraps call) : c.nanos ≤ (c.act call).nanos := by
  cases call with
  | advance secs =>
    simp only [act, advance]
    split
    · next hs =>
      obtain ⟨hf, h0⟩ : secs.isFinite = true ∧ 0.0 < secs := by simpa using hs
      have hroom : c.nanos.toNat + (secsToNanos secs).toNat < 2 ^ 64 :=
        Nat.lt_of_not_le fun hle => h ⟨hf, h0, hle⟩
      rw [UInt64.le_iff_toNat_le, UInt64.toNat_add, Nat.mod_eq_of_lt hroom]
      exact Nat.le_add_right _ _
    · exact UInt64.le_refl _
  | set secs =>
    simp only [act, set]
    split
    · change c.nanos ≤ if c.nanos ≤ secsToNanos secs then secsToNanos secs else c.nanos
      split
      · assumption
      · exact UInt64.le_refl _
    · exact UInt64.le_refl _

/-- A count that goes over the end of its word loses what the step lacks to a whole word. -/
theorem nanos_lt_of_wraps (h : c.Wraps call) : (c.act call).nanos < c.nanos := by
  cases call with
  | advance secs =>
    obtain ⟨hf, h0, hover⟩ := h
    have hstep := (secsToNanos secs).toNat_lt
    have hcount := c.nanos.toNat_lt
    have hact : c.act (.advance secs) = ⟨c.nanos + secsToNanos secs⟩ :=
      if_pos (Bool.and_eq_true_iff.2 ⟨hf, decide_eq_true h0⟩)
    rw [hact, UInt64.lt_iff_toNat_lt, UInt64.toNat_add]
    omega
  | set secs => exact h.elim

theorem nanos_le_act_iff : c.nanos ≤ (c.act call).nanos ↔ ¬ c.Wraps call :=
  ⟨fun hle hw => absurd hle (UInt64.not_le.2 (nanos_lt_of_wraps hw)), nanos_le_of_not_wraps⟩

/-- A call lets the reading fall only where it goes over the end of the word, and there it does
unless the two readings are equal. -/
theorem now_le_act_iff :
    c.now ≤ (c.act call).now ↔ (c.Wraps call → (c.act call).now = c.now) := by
  refine ⟨fun hle hw => ?_, fun h => ?_⟩
  · have hge : (c.act call).now ≤ c.now := now_le_now (UInt64.le_of_lt (nanos_lt_of_wraps hw))
    exact eq_of_le_of_le (hasSign_now _) (hasSign_now _) hge hle
  · by_cases hw : c.Wraps call
    · rw [h hw]
      exact now_le_now (UInt64.le_refl _)
    · exact now_le_now (nanos_le_of_not_wraps hw)

theorem countsOn_iff (calls : List ClockCall) : c.CountsOn calls ↔ c.NeverWraps calls := by
  induction calls generalizing c with
  | nil => exact Iff.rfl
  | cons call rest ih => exact and_congr nanos_le_act_iff ih

theorem NeverWraps.neverLoses {calls : List ClockCall} (h : c.NeverWraps calls) :
    c.NeverLoses calls := by
  induction calls generalizing c with
  | nil => trivial
  | cons call rest ih => exact ⟨fun hw => absurd hw h.1, ih h.2⟩

theorem neverBack_iff_neverLoses (calls : List ClockCall) :
    c.NeverBack calls ↔ c.NeverLoses calls := by
  induction calls generalizing c with
  | nil => exact Iff.rfl
  | cons call rest ih => exact and_congr now_le_act_iff ih

/-- Whatever is done to a clock, its reading never goes back exactly when no call loses time over
the end of the word, and its count never falls exactly when no call goes over that end. -/
theorem reading_never_back_iff (c : Clock) (calls : List ClockCall) :
    (c.NeverBack calls ↔ c.NeverLoses calls) ∧ (c.CountsOn calls ↔ c.NeverWraps calls) ∧
      (c.NeverWraps calls → c.NeverBack calls) :=
  ⟨neverBack_iff_neverLoses calls, countsOn_iff calls,
    fun h => (neverBack_iff_neverLoses calls).2 h.neverLoses⟩

/-- Two steps forward take a new clock to its end and on to zero. -/
theorem goes_back_at_the_end : ¬ zero.NeverBack [.advance 1e11, .advance 1e-9] := by
  rintro ⟨-, hback, -⟩
  exact absurd hback (by decide +kernel)

end Clock

end MotionTemplate
