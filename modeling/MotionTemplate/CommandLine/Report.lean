import MotionTemplate.Customization
import MotionTemplate.Render.Plan
import MotionTemplate.Template.References
import MotionTemplate.Template.Summary

/-! What the commands print, line by line. -/
namespace MotionTemplate.CommandLine.Report

private def plain (x : Float) : String := Number.Layout.message.render x

private def listed (texts : List String) : String := String.intercalate ", " texts

private def secondsList (xs : List Float) : String :=
  "[" ++ listed (xs.map Number.Layout.diagnostic.render) ++ "]"

private def sizeText (width height : Nat) : String := toString width ++ "x" ++ toString height

private def canvasText (width height fps : Nat) : String :=
  sizeText width height ++ " @ " ++ toString fps ++ "fps"

/-- A template that was just written to a path. -/
def created (d : Definition) (path : String) : List String :=
  ["Template created successfully:",
   "  Canvas: " ++ canvasText d.width d.height d.fps,
   "  Durations: " ++ secondsList d.durationPresets,
   "  Themes: " ++ listed d.themes.keys,
   "  Placeholders: " ++ listed d.placeholders.keys,
   "  Layers: " ++ toString d.layers.length,
   "",
   "Try: karo preview " ++ path ++ " --set headline=\"Hello\""]

/-- A template that is about to be checked. -/
def identity (d : Definition) : List String :=
  ["  ID: " ++ d.id,
   "  Name: " ++ d.name.en,
   "  Canvas: " ++ canvasText d.width d.height d.fps,
   "  Layers: " ++ toString d.layers.length]

/-- Everything that takes a fallback: the template's own markers, then the choices. -/
def issues (d : Definition) (c : Customization) (bounds : DurationBounds) : List String :=
  d.referenceIssues.map ReferenceIssue.message
    ++ (c.issues d bounds).map CustomizationIssue.message

/-- The outcome of a check. -/
def verdict : (issues : List String) → List String
  | [] => ["", "Template is valid."]
  | issues =>
    ["", "Validation issues:"] ++ issues.map ("  - " ++ ·)
      ++ ["", toString issues.length ++ " issue(s) found. Unresolved values will use fallbacks."]

private def kindText : FieldKind → String
  | .text => "Text"
  | .image => "Image"
  | .video => "Video"

private def fieldLines (f : CustomizableField) : List String :=
  ("  " ++ f.id ++ ": " ++ kindText f.kind ++ " \"" ++ f.label ++ "\""
      ++ (if f.required then " (required)" else ""))
    :: (f.maxLength.toList.map ("    max length: " ++ toString ·))
    ++ (f.default.toList.map ("    default: " ++ ·))

private def schemeLine (s : ColorScheme) : String :=
  "  " ++ s.theme ++ " (" ++ s.name ++ "): primary " ++ s.primary ++ ", secondary " ++ s.secondary
    ++ ", background " ++ s.background ++ ", text " ++ s.text

/-- The description of a template. -/
def summary (s : Summary) : List String :=
  ["Template: " ++ s.name, "  ID: " ++ s.id]
    ++ s.nameHi.toList.map ("  Name (hi): " ++ ·)
    ++ ["  Category: " ++ s.category,
        "  Canvas: " ++ canvasText s.width s.height s.fps ++ " (" ++ s.aspectRatio.getD "custom"
          ++ ")",
        "  Duration: " ++ plain s.defaultDuration ++ "s (presets: "
          ++ secondsList s.durationPresets ++ ")",
        "  Layers: " ++ toString s.layerCount]
    ++ (if s.tags.isEmpty then [] else ["  Tags: " ++ listed s.tags])
    ++ ["", "Customizable fields:"] ++ s.fields.flatMap fieldLines
    ++ ["", "Color schemes:"] ++ s.schemes.map schemeLine
    ++ ["", "Fonts: " ++ listed s.fonts]

private def fitText : Fit → String
  | .cover => "Cover"
  | .contain => "Contain"

private def contentText : OverlayContent → String
  | .video source fit => "video " ++ source ++ " (" ++ fitText fit ++ ")"
  | .image source _ => "image " ++ source
  | .text d => "text \"" ++ d.text ++ "\" (" ++ d.fontFamily ++ " " ++ plain d.fontSize ++ ")"

private def overlayLine (o : Overlay) : String :=
  "  [" ++ o.layer ++ "] z=" ++ toString o.z ++ " at (" ++ plain o.x ++ ", " ++ plain o.y
    ++ ") enable='" ++ o.enableExpression ++ "': " ++ contentText o.content

/-- A render plan, or the part of it that is enabled at a time. -/
def plan (p : RenderPlan) (time : Option Float) : List String :=
  let overlays :=
    match time with
    | some t => ("Overlays enabled at " ++ plain t ++ "s:") :: (p.enabledAt t).map overlayLine
    | none => "Overlays:" :: p.overlays.map overlayLine
  ["Render plan: " ++ p.template,
   "  Output: " ++ canvasText p.width p.height p.fps ++ ", " ++ plain p.duration ++ "s ("
     ++ toString p.totalFrames ++ " frames)",
   "  Background: " ++ p.background,
   ""]
    ++ overlays

end MotionTemplate.CommandLine.Report
