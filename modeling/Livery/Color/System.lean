import Livery.Color.Named

/-!
# System palette

The fixed palette that a brush may refer to by name, with the colour each entry has when the host
brings none of its own.
-/

namespace Livery

/-- An entry of the system palette, which a brush may name. -/
inductive SystemColor where
  | activeBorder
  | activeCaption
  | activeCaptionText
  | appWorkspace
  | control
  | controlDark
  | controlDarkDark
  | controlLight
  | controlLightLight
  | controlText
  | desktop
  | gradientActiveCaption
  | gradientInactiveCaption
  | grayText
  | highlight
  | highlightText
  | hotTrack
  | inactiveBorder
  | inactiveCaption
  | inactiveCaptionText
  | inactiveSelectionHighlight
  | inactiveSelectionHighlightText
  | info
  | infoText
  | menu
  | menuBar
  | menuHighlight
  | menuText
  | scrollBar
  | window
  | windowFrame
  | windowText
  deriving DecidableEq, Repr

namespace SystemColor

/-- The palette in its fixed order. -/
def all : List SystemColor :=
  [.activeBorder, .activeCaption, .activeCaptionText, .appWorkspace, .control, .controlDark,
   .controlDarkDark, .controlLight, .controlLightLight, .controlText, .desktop,
   .gradientActiveCaption, .gradientInactiveCaption, .grayText, .highlight, .highlightText,
   .hotTrack, .inactiveBorder, .inactiveCaption, .inactiveCaptionText,
   .inactiveSelectionHighlight, .inactiveSelectionHighlightText, .info, .infoText, .menu,
   .menuBar, .menuHighlight, .menuText, .scrollBar, .window, .windowFrame, .windowText]

/-- The name an overlay uses behind the `marker`. -/
def name : SystemColor → String
  | .activeBorder => "ActiveBorder"
  | .activeCaption => "ActiveCaption"
  | .activeCaptionText => "ActiveCaptionText"
  | .appWorkspace => "AppWorkspace"
  | .control => "Control"
  | .controlDark => "ControlDark"
  | .controlDarkDark => "ControlDarkDark"
  | .controlLight => "ControlLight"
  | .controlLightLight => "ControlLightLight"
  | .controlText => "ControlText"
  | .desktop => "Desktop"
  | .gradientActiveCaption => "GradientActiveCaption"
  | .gradientInactiveCaption => "GradientInactiveCaption"
  | .grayText => "GrayText"
  | .highlight => "Highlight"
  | .highlightText => "HighlightText"
  | .hotTrack => "HotTrack"
  | .inactiveBorder => "InactiveBorder"
  | .inactiveCaption => "InactiveCaption"
  | .inactiveCaptionText => "InactiveCaptionText"
  | .inactiveSelectionHighlight => "InactiveSelectionHighlight"
  | .inactiveSelectionHighlightText => "InactiveSelectionHighlightText"
  | .info => "Info"
  | .infoText => "InfoText"
  | .menu => "Menu"
  | .menuBar => "MenuBar"
  | .menuHighlight => "MenuHighlight"
  | .menuText => "MenuText"
  | .scrollBar => "ScrollBar"
  | .window => "Window"
  | .windowFrame => "WindowFrame"
  | .windowText => "WindowText"

/-- The `Color` of an entry. -/
def color : SystemColor → Color
  | .activeBorder => .ofRgb 0xB4B4B4
  | .activeCaption => .ofRgb 0x99B4D1
  | .activeCaptionText => .ofRgb 0x000000
  | .appWorkspace => .ofRgb 0xABABAB
  | .control => .ofRgb 0xF0F0F0
  | .controlDark => .ofRgb 0xA0A0A0
  | .controlDarkDark => .ofRgb 0x696969
  | .controlLight => .ofRgb 0xE3E3E3
  | .controlLightLight => .ofRgb 0xFFFFFF
  | .controlText => .ofRgb 0x000000
  | .desktop => .ofRgb 0x000000
  | .gradientActiveCaption => .ofRgb 0xB9D1EA
  | .gradientInactiveCaption => .ofRgb 0xD7E4F2
  | .grayText => .ofRgb 0x6D6D6D
  | .highlight => .ofRgb 0x0078D7
  | .highlightText => .ofRgb 0xFFFFFF
  | .hotTrack => .ofRgb 0x0066CC
  | .inactiveBorder => .ofRgb 0xF4F7FC
  | .inactiveCaption => .ofRgb 0xBFCDDB
  | .inactiveCaptionText => .ofRgb 0x000000
  | .inactiveSelectionHighlight => .ofRgb 0xF0F0F0
  | .inactiveSelectionHighlightText => .ofRgb 0x000000
  | .info => .ofRgb 0xFFFFE1
  | .infoText => .ofRgb 0x000000
  | .menu => .ofRgb 0xF0F0F0
  | .menuBar => .ofRgb 0xF0F0F0
  | .menuHighlight => .ofRgb 0x3399FF
  | .menuText => .ofRgb 0x000000
  | .scrollBar => .ofRgb 0xC8C8C8
  | .window => .ofRgb 0xFFFFFF
  | .windowFrame => .ofRgb 0x646464
  | .windowText => .ofRgb 0x000000

/-- The entry of exactly this `name`. -/
def ofName? (name : String) : Option SystemColor :=
  all.find? (·.name == name)

/-- What stands before the `name` of an entry in a reference. -/
def marker : String := "SystemColors."

/-- The reference to the entry `c`. -/
def text (c : SystemColor) : String := marker ++ c.name

end SystemColor

end Livery
