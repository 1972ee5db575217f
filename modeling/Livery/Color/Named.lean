import Livery.Color

/-!
# Named colours

The names a colour literal may use instead of digits, whatever their letter case, and the reader of
colour literals.
-/

namespace Livery.Color

/-- Every colour name with its value, in alphabetical order. -/
def named : List (String × Color) :=
  [("AliceBlue", ofRgb 0xF0F8FF), ("AntiqueWhite", ofRgb 0xFAEBD7), ("Aqua", ofRgb 0x00FFFF),
   ("Aquamarine", ofRgb 0x7FFFD4), ("Azure", ofRgb 0xF0FFFF), ("Beige", ofRgb 0xF5F5DC),
   ("Bisque", ofRgb 0xFFE4C4), ("Black", ofRgb 0x000000), ("BlanchedAlmond", ofRgb 0xFFEBCD),
   ("Blue", ofRgb 0x0000FF), ("BlueViolet", ofRgb 0x8A2BE2), ("Brown", ofRgb 0xA52A2A),
   ("BurlyWood", ofRgb 0xDEB887), ("CadetBlue", ofRgb 0x5F9EA0), ("Chartreuse", ofRgb 0x7FFF00),
   ("Chocolate", ofRgb 0xD2691E), ("Coral", ofRgb 0xFF7F50), ("CornflowerBlue", ofRgb 0x6495ED),
   ("Cornsilk", ofRgb 0xFFF8DC), ("Crimson", ofRgb 0xDC143C), ("Cyan", ofRgb 0x00FFFF),
   ("DarkBlue", ofRgb 0x00008B), ("DarkCyan", ofRgb 0x008B8B), ("DarkGoldenrod", ofRgb 0xB8860B),
   ("DarkGray", ofRgb 0xA9A9A9), ("DarkGreen", ofRgb 0x006400), ("DarkKhaki", ofRgb 0xBDB76B),
   ("DarkMagenta", ofRgb 0x8B008B), ("DarkOliveGreen", ofRgb 0x556B2F),
   ("DarkOrange", ofRgb 0xFF8C00), ("DarkOrchid", ofRgb 0x9932CC), ("DarkRed", ofRgb 0x8B0000),
   ("DarkSalmon", ofRgb 0xE9967A), ("DarkSeaGreen", ofRgb 0x8FBC8F),
   ("DarkSlateBlue", ofRgb 0x483D8B), ("DarkSlateGray", ofRgb 0x2F4F4F),
   ("DarkTurquoise", ofRgb 0x00CED1), ("DarkViolet", ofRgb 0x9400D3), ("DeepPink", ofRgb 0xFF1493),
   ("DeepSkyBlue", ofRgb 0x00BFFF), ("DimGray", ofRgb 0x696969), ("DodgerBlue", ofRgb 0x1E90FF),
   ("Firebrick", ofRgb 0xB22222), ("FloralWhite", ofRgb 0xFFFAF0), ("ForestGreen", ofRgb 0x228B22),
   ("Fuchsia", ofRgb 0xFF00FF), ("Gainsboro", ofRgb 0xDCDCDC), ("GhostWhite", ofRgb 0xF8F8FF),
   ("Gold", ofRgb 0xFFD700), ("Goldenrod", ofRgb 0xDAA520), ("Gray", ofRgb 0x808080),
   ("Green", ofRgb 0x008000), ("GreenYellow", ofRgb 0xADFF2F), ("Honeydew", ofRgb 0xF0FFF0),
   ("HotPink", ofRgb 0xFF69B4), ("IndianRed", ofRgb 0xCD5C5C), ("Indigo", ofRgb 0x4B0082),
   ("Ivory", ofRgb 0xFFFFF0), ("Khaki", ofRgb 0xF0E68C), ("Lavender", ofRgb 0xE6E6FA),
   ("LavenderBlush", ofRgb 0xFFF0F5), ("LawnGreen", ofRgb 0x7CFC00),
   ("LemonChiffon", ofRgb 0xFFFACD), ("LightBlue", ofRgb 0xADD8E6), ("LightCoral", ofRgb 0xF08080),
   ("LightCyan", ofRgb 0xE0FFFF), ("LightGoldenrodYellow", ofRgb 0xFAFAD2),
   ("LightGray", ofRgb 0xD3D3D3), ("LightGreen", ofRgb 0x90EE90), ("LightPink", ofRgb 0xFFB6C1),
   ("LightSalmon", ofRgb 0xFFA07A), ("LightSeaGreen", ofRgb 0x20B2AA),
   ("LightSkyBlue", ofRgb 0x87CEFA), ("LightSlateGray", ofRgb 0x778899),
   ("LightSteelBlue", ofRgb 0xB0C4DE), ("LightYellow", ofRgb 0xFFFFE0), ("Lime", ofRgb 0x00FF00),
   ("LimeGreen", ofRgb 0x32CD32), ("Linen", ofRgb 0xFAF0E6), ("Magenta", ofRgb 0xFF00FF),
   ("Maroon", ofRgb 0x800000), ("MediumAquamarine", ofRgb 0x66CDAA),
   ("MediumBlue", ofRgb 0x0000CD), ("MediumOrchid", ofRgb 0xBA55D3),
   ("MediumPurple", ofRgb 0x9370DB), ("MediumSeaGreen", ofRgb 0x3CB371),
   ("MediumSlateBlue", ofRgb 0x7B68EE), ("MediumSpringGreen", ofRgb 0x00FA9A),
   ("MediumTurquoise", ofRgb 0x48D1CC), ("MediumVioletRed", ofRgb 0xC71585),
   ("MidnightBlue", ofRgb 0x191970), ("MintCream", ofRgb 0xF5FFFA), ("MistyRose", ofRgb 0xFFE4E1),
   ("Moccasin", ofRgb 0xFFE4B5), ("NavajoWhite", ofRgb 0xFFDEAD), ("Navy", ofRgb 0x000080),
   ("OldLace", ofRgb 0xFDF5E6), ("Olive", ofRgb 0x808000), ("OliveDrab", ofRgb 0x6B8E23),
   ("Orange", ofRgb 0xFFA500), ("OrangeRed", ofRgb 0xFF4500), ("Orchid", ofRgb 0xDA70D6),
   ("PaleGoldenrod", ofRgb 0xEEE8AA), ("PaleGreen", ofRgb 0x98FB98),
   ("PaleTurquoise", ofRgb 0xAFEEEE), ("PaleVioletRed", ofRgb 0xDB7093),
   ("PapayaWhip", ofRgb 0xFFEFD5), ("PeachPuff", ofRgb 0xFFDAB9), ("Peru", ofRgb 0xCD853F),
   ("Pink", ofRgb 0xFFC0CB), ("Plum", ofRgb 0xDDA0DD), ("PowderBlue", ofRgb 0xB0E0E6),
   ("Purple", ofRgb 0x800080), ("Red", ofRgb 0xFF0000), ("RosyBrown", ofRgb 0xBC8F8F),
   ("RoyalBlue", ofRgb 0x4169E1), ("SaddleBrown", ofRgb 0x8B4513), ("Salmon", ofRgb 0xFA8072),
   ("SandyBrown", ofRgb 0xF4A460), ("SeaGreen", ofRgb 0x2E8B57), ("SeaShell", ofRgb 0xFFF5EE),
   ("Sienna", ofRgb 0xA0522D), ("Silver", ofRgb 0xC0C0C0), ("SkyBlue", ofRgb 0x87CEEB),
   ("SlateBlue", ofRgb 0x6A5ACD), ("SlateGray", ofRgb 0x708090), ("Snow", ofRgb 0xFFFAFA),
   ("SpringGreen", ofRgb 0x00FF7F), ("SteelBlue", ofRgb 0x4682B4), ("Tan", ofRgb 0xD2B48C),
   ("Teal", ofRgb 0x008080), ("Thistle", ofRgb 0xD8BFD8), ("Tomato", ofRgb 0xFF6347),
   ("Transparent", transparent), ("Turquoise", ofRgb 0x40E0D0), ("Violet", ofRgb 0xEE82EE),
   ("Wheat", ofRgb 0xF5DEB3), ("White", ofRgb 0xFFFFFF), ("WhiteSmoke", ofRgb 0xF5F5F5),
   ("Yellow", ofRgb 0xFFFF00), ("YellowGreen", ofRgb 0x9ACD32)]

/-- The colour that is `named` so, ignoring ASCII case. -/
def named? (name : String) : Option Color :=
  (named.find? fun entry => Text.lower entry.1 == Text.lower name).map (·.2)

/-- Reads a colour literal, by `ofHex` behind a `#` and by `named?` otherwise, white space around it
ignored. -/
def parse (s : String) : Except ParseError Color :=
  match Text.trimmed s.toList with
  | [] => .error .empty
  | '#' :: digits => ofHex digits
  | name =>
    match named? (String.ofList name) with
    | some c => .ok c
    | none => .error .unknownName

end Livery.Color
