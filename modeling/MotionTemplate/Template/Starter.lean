import MotionTemplate.Template.Definition

/-! The definition that a new template starts from. -/
namespace MotionTemplate.Definition

private def starterTheme (name background primary accent heading : String) : Theme where
  name := some name
  colors := .ofList [("accent", accent), ("background", background), ("primary", primary)]
  fonts := .ofList [("body", "Inter"), ("heading", heading)]

private def starterHeadline : Placeholder :=
  { Placeholder.ofText "Your headline here" with
    required := true, maxLength := some 40, label := some "Headline" }

private def starterLogo : Placeholder :=
  { Placeholder.ofKind .logo with label := some "Logo" }

private def backgroundLayer : Layer :=
  (Layer.new "bg" .solid).withStyle "color" (.token (.themeColor "background"))

private def logoLayer : Layer :=
  (Layer.new "logo" .image).withZ 2
    |>.withSource (.token (.placeholder "logo"))
    |>.withTransform "x" (.number 440.0)
    |>.withTransform "y" (.number 160.0)
    |>.withTransform "w" (.number 200.0)
    |>.withTransform "h" (.number 200.0)
    |>.withAnimation .pop 0.4

private def headlineLayer : Layer :=
  (Layer.new "headline" .text).withWindow 0.5 none
    |>.withZ 3
    |>.withText (.token (.placeholder "headline"))
    |>.withStyle "color" (.token (.themeColor "primary"))
    |>.withStyle "fontFamily" (.token (.themeFont "heading"))
    |>.withStyle "fontSize" (.number 72.0)
    |>.withTransform "x" (.number 80.0)
    |>.withTransform "y" (.number 860.0)
    |>.withAnimation .slideUp 0.6

/-- A small but complete portrait template with two themes, a headline and a logo. -/
def starter (id name : String) : Definition :=
  { Definition.new id name 1080 1920 30 with
    aspectRatio := some .portrait
    category := "business"
    durationPresets := [15.0, 30.0]
    themes := .ofList
      [("classic", starterTheme "Classic" "#111111" "#FFFFFF" "#FF5A36" "Poppins"),
       ("gold", starterTheme "Gold" "#1B1200" "#FFD700" "#FFFFFF" "Playfair Display")]
    placeholders := .ofList [("headline", starterHeadline), ("logo", starterLogo)]
    layers := [backgroundLayer, logoLayer, headlineLayer] }

end MotionTemplate.Definition
