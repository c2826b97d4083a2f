import Mathlib.Data.List.Induction
import MotionTemplate.Proofs.PlayheadStep

/-! Gestures. A playhead that is held stays held until the gesture ends, and only a jump moves its
time. Then it does what it was asked for meanwhile, save that a toggle is always heard as a start. -/
namespace MotionTemplate

namespace Transport

variable {α : Type}

/-- What may be done in a gesture, before it ends. -/
def inGesture : Transport α → Bool
  | .play _ | .pause _ | .toggle _ | .advance _ | .scrubTo _ _ => true
  | .beginScrub _ | .endScrub _ | .setDuration _ _ | .setLoop _ => false

def isJump : Transport α → Bool
  | .scrubTo _ _ => true
  | _ => false

/-- An action that asks for playback to go on or to stop. -/
def isRequest : Transport α → Bool
  | .play _ | .pause _ | .toggle _ => true
  | _ => false

def isToggle : Transport α → Bool
  | .toggle _ => true
  | _ => false

/-- Whether playback is asked for after an action, if it was or was not before. A toggle asks for
the other of the two. -/
def asks (playing : Bool) : Transport α → Bool
  | .play _ => true
  | .pause _ => false
  | .toggle _ => !playing
  | _ => playing

/-- What a held playhead makes of it: a toggle is heard as a start. -/
private def hears (playing : Bool) : Transport α → Bool
  | .play _ | .toggle _ => true
  | .pause _ => false
  | _ => playing

/-- The last request of a gesture is a toggle. -/
def endsOnToggle (gesture : List (Transport α)) : Bool :=
  (gesture.filter isRequest).getLast?.any isToggle

private theorem endsOnToggle_concat (gesture : List (Transport α)) (action : Transport α) :
    endsOnToggle (gesture ++ [action]) =
      if action.isRequest then action.isToggle else endsOnToggle gesture := by
  rw [endsOnToggle, List.filter_append]
  split
  · next h => simp [h]
  · next h => simp [h, endsOnToggle]

/-- What is heard is what is asked for, unless the last word is a toggle that asks for a stop. -/
private theorem foldl_hears (playing : Bool) (gesture : List (Transport α)) :
    gesture.foldl hears playing = (gesture.foldl asks playing || endsOnToggle gesture) := by
  induction gesture using List.reverseRecOn with
  | nil => exact (Bool.or_false playing).symm
  | append_singleton gesture action ih =>
    rw [List.foldl_append, List.foldl_append, endsOnToggle_concat, List.foldl_cons, List.foldl_cons,
      List.foldl_nil, List.foldl_nil, ih]
    cases action with
    | play | pause => rfl
    | toggle => exact (Bool.or_true _).symm
    | scrubTo | beginScrub | endScrub | advance | setDuration | setLoop => rfl

end Transport

namespace Playhead

variable {α : Type} [Measure α] [OfNat α 0] [LT α] [DecidableLT α] [Add α] [Sub α] [LE α]
  [DecidableLE α] {p : Playhead α}

/-- A playhead is held at every point of a run, and only jumps move its time. -/
def Holds (p : Playhead α) : List (Transport α) → Prop
  | [] => p.mode = .scrubbing
  | action :: rest =>
    p.mode = .scrubbing ∧ (action.isJump = false → (p.act action).time = p.time) ∧
      (p.act action).Holds rest

/-- What an action of a gesture does to a playhead that is held. -/
private structure HeldStep (p q : Playhead α) (action : Transport α) : Prop where
  mode : q.mode = .scrubbing
  time : action.isJump = false → q.time = p.time
  resumes : q.resumes = action.hears p.resumes

private theorem heldStep_act (hm : p.mode = .scrubbing) {action : Transport α}
    (h : action.inGesture) : HeldStep p (p.act action) action := by
  cases action with
  | play now =>
    have heq : p.act (.play now) = { p with resumes := true } := by simp [act, play, hm]
    rw [heq]
    exact ⟨hm, fun _ => rfl, rfl⟩
  | pause now =>
    have heq : p.act (.pause now) = { p with resumes := false } := by simp [act, pause, hm]
    rw [heq]
    exact ⟨hm, fun _ => rfl, rfl⟩
  | toggle now =>
    have heq : p.act (.toggle now) = { p with resumes := true } := by
      simp [act, toggle, play, hm]
    rw [heq]
    exact ⟨hm, fun _ => rfl, rfl⟩
  | advance now =>
    have heq : p.act (.advance now) = p := by simp [act, advance, hm]
    rw [heq]
    exact ⟨hm, fun _ => rfl, rfl⟩
  | scrubTo t now =>
    rw [act, scrubTo]
    have hjump : ¬ (Transport.scrubTo t now).isJump = false := Bool.noConfusion
    split
    · exact ⟨hm, fun hj => absurd hj hjump, rfl⟩
    · exact ⟨hm, fun hj => absurd hj hjump, rfl⟩
  | beginScrub | endScrub | setDuration | setLoop => exact absurd h Bool.false_ne_true

/-- A whole gesture, by its steps. -/
private theorem holds_gesture (hm : p.mode = .scrubbing) {gesture : List (Transport α)}
    (hg : ∀ action ∈ gesture, action.inGesture) :
    p.Holds gesture ∧ (gesture.foldl act p).mode = .scrubbing ∧
      (gesture.foldl act p).resumes = gesture.foldl Transport.hears p.resumes := by
  induction gesture generalizing p with
  | nil => exact ⟨hm, hm, rfl⟩
  | cons action rest ih =>
    obtain ⟨haction, hrest⟩ := List.forall_mem_cons.1 hg
    have hstep := heldStep_act hm haction
    obtain ⟨hholds, hmode, hresumes⟩ := ih hstep.mode hrest
    refine ⟨⟨hm, hstep.time, hholds⟩, hmode, ?_⟩
    rw [List.foldl_cons, List.foldl_cons, hresumes, hstep.resumes]

private theorem beginScrub_eq (hp : p.mode ≠ .scrubbing) (now : α) :
    p.beginScrub now =
      { p.advance now with resumes := (p.advance now).mode = .playing, mode := .scrubbing } := by
  rw [beginScrub, if_neg hp, settle_eq_advance]

omit [OfNat α 0] [LT α] [DecidableLT α] [Add α] [Sub α] [LE α] [DecidableLE α] in
private theorem endScrub_eq (hp : p.mode = .scrubbing) (now : α) :
    p.endScrub now =
      ({ p with
        mode := if p.resumes then .playing else .stopped, resumes := false }).anchor now := by
  rw [endScrub, if_pos hp]

/-- A gesture holds the time that it begins with: until it ends, the playhead is held and only a
jump moves its time. Afterwards it plays if that was asked for last, by a toggle or otherwise: so it
does what it was asked for exactly unless the last request is a toggle that asks for a stop. -/
theorem gesture_holds_and_defers (hp : p.mode ≠ .scrubbing) (a b : α)
    {gesture : List (Transport α)} (hg : ∀ action ∈ gesture, action.inGesture) :
    let playing : Bool := (p.advance a).mode = .playing
    let asked := gesture.foldl Transport.asks playing
    let held := p.beginScrub a
    let q := (gesture.foldl act held).endScrub b
    held.time = (p.advance a).time ∧ held.Holds gesture ∧
      q.time = (gesture.foldl act held).time ∧
      q.mode = (if asked || Transport.endsOnToggle gesture then .playing else .stopped) ∧
      (q.mode = (if asked then .playing else .stopped) ↔
        ¬ (asked = false ∧ Transport.endsOnToggle gesture)) := by
  intro playing asked held q
  have hheld : held = { p.advance a with resumes := playing, mode := .scrubbing } :=
    beginScrub_eq hp a
  have hmode : held.mode = .scrubbing := by rw [hheld]
  have hresumes : held.resumes = playing := by rw [hheld]
  obtain ⟨hholds, hend, hheard⟩ := holds_gesture hmode hg
  have hq : q = _ := endScrub_eq hend b
  have hlast : q.mode =
      if asked || Transport.endsOnToggle gesture then .playing else .stopped := by
    rw [hq, ← Transport.foldl_hears, ← hresumes, ← hheard]
    rfl
  refine ⟨by rw [hheld], hholds, by rw [hq]; rfl, hlast, ?_⟩
  rw [hlast]
  cases asked <;> cases Transport.endsOnToggle gesture <;> simp

/-- A gesture on a playhead that plays. It is told to stop, jumps and is toggled, and so plays on
from where it jumped to. -/
theorem gesture_plays_on :
    let p := (Playhead.new (10.0 : Float)).play 0.0
    let gesture : List (Transport Float) := [.pause 2.0, .scrubTo 6.0 2.5, .toggle 3.0, .advance 4.0]
    let q := (gesture.foldl act (p.beginScrub 1.0)).endScrub 5.0
    p.mode ≠ .scrubbing ∧ (p.beginScrub 1.0).Holds gesture ∧ q.mode = .playing ∧ q.time = 6.0 := by
  intro p gesture q
  have hp : p.mode ≠ .scrubbing := by decide +kernel
  have hg : ∀ action ∈ gesture, action.inGesture := by decide
  obtain ⟨-, hholds, htime, hmode, -⟩ := gesture_holds_and_defers hp 1.0 5.0 hg
  exact ⟨hp, hholds, hmode.trans (by decide +kernel), htime.trans (by decide +kernel)⟩

/-- Toggled once while it is held, a playhead that plays is asked to stop, and plays on. -/
theorem toggled_gesture_plays_on :
    let p := (Playhead.new (10.0 : Float)).play 0.0
    let gesture : List (Transport Float) := [.toggle 2.0]
    let q := (gesture.foldl act (p.beginScrub 1.0)).endScrub 3.0
    p.mode ≠ .scrubbing ∧ gesture.foldl Transport.asks ((p.advance 1.0).mode = .playing) = false ∧
      q.mode ≠ .stopped := by
  decide +kernel

end Playhead

end MotionTemplate
