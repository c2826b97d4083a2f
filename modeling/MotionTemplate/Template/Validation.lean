import MotionTemplate.Template.Definition

/-! What makes a definition unusable. The first flaw found is the one that is reported. -/
namespace MotionTemplate

/-- A structural flaw of a definition. -/
inductive Flaw where
  | emptyCanvas (width height : Nat)
  | noFrameRate
  | noPresets
  | badPreset (secs : Float)
  | namelessLayer
  | duplicateLayer (id : String)
  /-- A literal time at one edge of a layer's window is not finite. -/
  | unboundedWindow (id edge : String)
deriving DecidableEq

namespace Flaw

def message : Flaw → String
  | emptyCanvas width height =>
    "canvas must be non-empty, got " ++ toString width ++ "x" ++ toString height
  | noFrameRate => "fps must be > 0"
  | noPresets => "durationPresets must not be empty"
  | badPreset secs =>
    "duration preset " ++ Number.Layout.message.render secs ++ " must be a positive number"
  | namelessLayer => "layer id must not be empty"
  | duplicateLayer id => "duplicate layer id '" ++ id ++ "'"
  | unboundedWindow id edge => "layer '" ++ id ++ "' has a non-finite " ++ edge

end Flaw

namespace Layer

/-- The edge of the window whose literal time is not finite. -/
def unboundedEdge? (l : Layer) : Option String :=
  let unbounded (v : Value) : Bool := v.float?.any (!·.isFinite)
  if unbounded l.start then some "start" else if unbounded l.finish then some "end" else none

end Layer

namespace Definition

/-- The first flaw among layers, given the ids that came before them. -/
def layerFlaw? (seen : List String) : List Layer → Option Flaw
  | [] => none
  | l :: rest =>
    if l.id = "" then some .namelessLayer
    else if l.id ∈ seen then some (.duplicateLayer l.id)
    else match l.unboundedEdge? with
      | some edge => some (.unboundedWindow l.id edge)
      | none => layerFlaw? (l.id :: seen) rest

def usablePreset (secs : Float) : Bool := secs.isFinite && 0.0 < secs

/-- The first flaw of a definition. -/
def flaw? (d : Definition) : Option Flaw :=
  if d.width = 0 ∨ d.height = 0 then some (.emptyCanvas d.width d.height)
  else if d.fps = 0 then some .noFrameRate
  else if d.durationPresets = [] then some .noPresets
  else match d.durationPresets.find? (!usablePreset ·) with
    | some secs => some (.badPreset secs)
    | none => layerFlaw? [] d.layers

def validate (d : Definition) : Except Flaw Unit :=
  match d.flaw? with
  | some flaw => .error flaw
  | none => .ok ()

end Definition

end MotionTemplate
