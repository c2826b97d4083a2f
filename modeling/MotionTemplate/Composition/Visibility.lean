import MotionTemplate.Composition.Resolution

/-! How the visibility of layers changes from one look at a composition to the next. -/
namespace MotionTemplate

/-- What became of a layer since the last look. -/
inductive VisibilityChange where
  /-- Hidden before, visible now. -/
  | entered
  | steady
  /-- Visible before, hidden now. -/
  | exited
  | hidden
deriving DecidableEq

namespace VisibilityChange

def isVisible : VisibilityChange → Bool
  | entered | steady => true
  | exited | hidden => false

def between : (before now : Bool) → VisibilityChange
  | false, true => entered
  | true, true => steady
  | true, false => exited
  | false, false => hidden

end VisibilityChange

/-- The visibility of the layers seen so far, by id. -/
structure VisibilityTracker where
  seen : KeyMap Bool
deriving DecidableEq

namespace VisibilityTracker

def empty : VisibilityTracker := ⟨∅⟩

/-- Whether a layer was visible at the last look. A layer that was never seen counts as hidden. -/
def wasVisible (v : VisibilityTracker) (id : String) : Bool := (v.seen.find? id).getD false

/-- Looks at a layer at a time. -/
def observe (v : VisibilityTracker) (l : ResolvedLayer) (t duration : Float) :
    VisibilityTracker × VisibilityChange :=
  let now := l.window.isVisible t duration
  (⟨v.seen.insert l.id now⟩, .between (v.wasVisible l.id) now)

/-- The number of layers that were visible at the last look. -/
def visibleCount (v : VisibilityTracker) : Nat := v.seen.values.count true

end VisibilityTracker

end MotionTemplate
