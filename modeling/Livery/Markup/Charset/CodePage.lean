/-!
# Code pages

The charsets of one byte per character that agree with ASCII below 0x80. Each is given by the
characters of its upper half.
-/

namespace Livery.Markup

/-- A charset of one byte per character. -/
inductive CodePage where
  | ibm866
  | latin2
  | latin3
  | latin4
  | isoCyrillic
  | isoArabic
  | isoGreek
  | isoHebrew
  | latin6
  | latin7
  | latin8
  | latin9
  | latin10
  | koi8r
  | koi8u
  | macintosh
  | macCyrillic
  | windows874
  | windows1250
  | windows1251
  | windows1252
  | windows1253
  | windows1254
  | windows1255
  | windows1256
  | windows1257
  | windows1258
  deriving DecidableEq, Repr

namespace CodePage

/-- The upper half of a page as runs of consecutive code points: the first one and their number. A
run that begins at `0` stands for bytes without a character. -/
def upperHalf : CodePage → List (Nat × Nat)
  | .ibm866 =>
    [(0x410, 48), (0x2591, 3), (0x2502, 1), (0x2524, 1), (0x2561, 2), (0x2556, 1), (0x2555, 1),
     (0x2563, 1), (0x2551, 1), (0x2557, 1), (0x255D, 1), (0x255C, 1), (0x255B, 1), (0x2510, 1),
     (0x2514, 1), (0x2534, 1), (0x252C, 1), (0x251C, 1), (0x2500, 1), (0x253C, 1), (0x255E, 2),
     (0x255A, 1), (0x2554, 1), (0x2569, 1), (0x2566, 1), (0x2560, 1), (0x2550, 1), (0x256C, 1),
     (0x2567, 2), (0x2564, 2), (0x2559, 1), (0x2558, 1), (0x2552, 2), (0x256B, 1), (0x256A, 1),
     (0x2518, 1), (0x250C, 1), (0x2588, 1), (0x2584, 1), (0x258C, 1), (0x2590, 1), (0x2580, 1),
     (0x440, 16), (0x401, 1), (0x451, 1), (0x404, 1), (0x454, 1), (0x407, 1), (0x457, 1),
     (0x40E, 1), (0x45E, 1), (0xB0, 1), (0x2219, 1), (0xB7, 1), (0x221A, 1), (0x2116, 1),
     (0xA4, 1), (0x25A0, 1), (0xA0, 1)]
  | .latin2 =>
    [(0x80, 33), (0x104, 1), (0x2D8, 1), (0x141, 1), (0xA4, 1), (0x13D, 1), (0x15A, 1),
     (0xA7, 2), (0x160, 1), (0x15E, 1), (0x164, 1), (0x179, 1), (0xAD, 1), (0x17D, 1),
     (0x17B, 1), (0xB0, 1), (0x105, 1), (0x2DB, 1), (0x142, 1), (0xB4, 1), (0x13E, 1),
     (0x15B, 1), (0x2C7, 1), (0xB8, 1), (0x161, 1), (0x15F, 1), (0x165, 1), (0x17A, 1),
     (0x2DD, 1), (0x17E, 1), (0x17C, 1), (0x154, 1), (0xC1, 2), (0x102, 1), (0xC4, 1),
     (0x139, 1), (0x106, 1), (0xC7, 1), (0x10C, 1), (0xC9, 1), (0x118, 1), (0xCB, 1),
     (0x11A, 1), (0xCD, 2), (0x10E, 1), (0x110, 1), (0x143, 1), (0x147, 1), (0xD3, 2),
     (0x150, 1), (0xD6, 2), (0x158, 1), (0x16E, 1), (0xDA, 1), (0x170, 1), (0xDC, 2),
     (0x162, 1), (0xDF, 1), (0x155, 1), (0xE1, 2), (0x103, 1), (0xE4, 1), (0x13A, 1),
     (0x107, 1), (0xE7, 1), (0x10D, 1), (0xE9, 1), (0x119, 1), (0xEB, 1), (0x11B, 1), (0xED, 2),
     (0x10F, 1), (0x111, 1), (0x144, 1), (0x148, 1), (0xF3, 2), (0x151, 1), (0xF6, 2),
     (0x159, 1), (0x16F, 1), (0xFA, 1), (0x171, 1), (0xFC, 2), (0x163, 1), (0x2D9, 1)]
  | .latin3 =>
    [(0x80, 33), (0x126, 1), (0x2D8, 1), (0xA3, 2), (0, 1), (0x124, 1), (0xA7, 2), (0x130, 1),
     (0x15E, 1), (0x11E, 1), (0x134, 1), (0xAD, 1), (0, 1), (0x17B, 1), (0xB0, 1), (0x127, 1),
     (0xB2, 4), (0x125, 1), (0xB7, 2), (0x131, 1), (0x15F, 1), (0x11F, 1), (0x135, 1),
     (0xBD, 1), (0, 1), (0x17C, 1), (0xC0, 3), (0, 1), (0xC4, 1), (0x10A, 1), (0x108, 1),
     (0xC7, 9), (0, 1), (0xD1, 4), (0x120, 1), (0xD6, 2), (0x11C, 1), (0xD9, 4), (0x16C, 1),
     (0x15C, 1), (0xDF, 4), (0, 1), (0xE4, 1), (0x10B, 1), (0x109, 1), (0xE7, 9), (0, 1),
     (0xF1, 4), (0x121, 1), (0xF6, 2), (0x11D, 1), (0xF9, 4), (0x16D, 1), (0x15D, 1),
     (0x2D9, 1)]
  | .latin4 =>
    [(0x80, 33), (0x104, 1), (0x138, 1), (0x156, 1), (0xA4, 1), (0x128, 1), (0x13B, 1),
     (0xA7, 2), (0x160, 1), (0x112, 1), (0x122, 1), (0x166, 1), (0xAD, 1), (0x17D, 1),
     (0xAF, 2), (0x105, 1), (0x2DB, 1), (0x157, 1), (0xB4, 1), (0x129, 1), (0x13C, 1),
     (0x2C7, 1), (0xB8, 1), (0x161, 1), (0x113, 1), (0x123, 1), (0x167, 1), (0x14A, 1),
     (0x17E, 1), (0x14B, 1), (0x100, 1), (0xC1, 6), (0x12E, 1), (0x10C, 1), (0xC9, 1),
     (0x118, 1), (0xCB, 1), (0x116, 1), (0xCD, 2), (0x12A, 1), (0x110, 1), (0x145, 1),
     (0x14C, 1), (0x136, 1), (0xD4, 5), (0x172, 1), (0xDA, 3), (0x168, 1), (0x16A, 1),
     (0xDF, 1), (0x101, 1), (0xE1, 6), (0x12F, 1), (0x10D, 1), (0xE9, 1), (0x119, 1), (0xEB, 1),
     (0x117, 1), (0xED, 2), (0x12B, 1), (0x111, 1), (0x146, 1), (0x14D, 1), (0x137, 1),
     (0xF4, 5), (0x173, 1), (0xFA, 3), (0x169, 1), (0x16B, 1), (0x2D9, 1)]
  | .isoCyrillic =>
    [(0x80, 33), (0x401, 12), (0xAD, 1), (0x40E, 66), (0x2116, 1), (0x451, 12), (0xA7, 1),
     (0x45E, 2)]
  | .isoArabic =>
    [(0x80, 33), (0, 3), (0xA4, 1), (0, 7), (0x60C, 1), (0xAD, 1), (0, 13), (0x61B, 1), (0, 3),
     (0x61F, 1), (0, 1), (0x621, 26), (0, 5), (0x640, 19), (0, 13)]
  | .isoGreek =>
    [(0x80, 33), (0x2018, 2), (0xA3, 1), (0x20AC, 1), (0x20AF, 1), (0xA6, 4), (0x37A, 1),
     (0xAB, 3), (0, 1), (0x2015, 1), (0xB0, 4), (0x384, 3), (0xB7, 1), (0x388, 3), (0xBB, 1),
     (0x38C, 1), (0xBD, 1), (0x38E, 20), (0, 1), (0x3A3, 44), (0, 1)]
  | .isoHebrew =>
    [(0x80, 33), (0, 1), (0xA2, 8), (0xD7, 1), (0xAB, 15), (0xF7, 1), (0xBB, 4), (0, 32),
     (0x2017, 1), (0x5D0, 27), (0, 2), (0x200E, 2), (0, 1)]
  | .latin6 =>
    [(0x80, 33), (0x104, 1), (0x112, 1), (0x122, 1), (0x12A, 1), (0x128, 1), (0x136, 1),
     (0xA7, 1), (0x13B, 1), (0x110, 1), (0x160, 1), (0x166, 1), (0x17D, 1), (0xAD, 1),
     (0x16A, 1), (0x14A, 1), (0xB0, 1), (0x105, 1), (0x113, 1), (0x123, 1), (0x12B, 1),
     (0x129, 1), (0x137, 1), (0xB7, 1), (0x13C, 1), (0x111, 1), (0x161, 1), (0x167, 1),
     (0x17E, 1), (0x2015, 1), (0x16B, 1), (0x14B, 1), (0x100, 1), (0xC1, 6), (0x12E, 1),
     (0x10C, 1), (0xC9, 1), (0x118, 1), (0xCB, 1), (0x116, 1), (0xCD, 4), (0x145, 1),
     (0x14C, 1), (0xD3, 4), (0x168, 1), (0xD8, 1), (0x172, 1), (0xDA, 6), (0x101, 1), (0xE1, 6),
     (0x12F, 1), (0x10D, 1), (0xE9, 1), (0x119, 1), (0xEB, 1), (0x117, 1), (0xED, 4),
     (0x146, 1), (0x14D, 1), (0xF3, 4), (0x169, 1), (0xF8, 1), (0x173, 1), (0xFA, 5),
     (0x138, 1)]
  | .latin7 =>
    [(0x80, 33), (0x201D, 1), (0xA2, 3), (0x201E, 1), (0xA6, 2), (0xD8, 1), (0xA9, 1),
     (0x156, 1), (0xAB, 4), (0xC6, 1), (0xB0, 4), (0x201C, 1), (0xB5, 3), (0xF8, 1), (0xB9, 1),
     (0x157, 1), (0xBB, 4), (0xE6, 1), (0x104, 1), (0x12E, 1), (0x100, 1), (0x106, 1),
     (0xC4, 2), (0x118, 1), (0x112, 1), (0x10C, 1), (0xC9, 1), (0x179, 1), (0x116, 1),
     (0x122, 1), (0x136, 1), (0x12A, 1), (0x13B, 1), (0x160, 1), (0x143, 1), (0x145, 1),
     (0xD3, 1), (0x14C, 1), (0xD5, 3), (0x172, 1), (0x141, 1), (0x15A, 1), (0x16A, 1),
     (0xDC, 1), (0x17B, 1), (0x17D, 1), (0xDF, 1), (0x105, 1), (0x12F, 1), (0x101, 1),
     (0x107, 1), (0xE4, 2), (0x119, 1), (0x113, 1), (0x10D, 1), (0xE9, 1), (0x17A, 1),
     (0x117, 1), (0x123, 1), (0x137, 1), (0x12B, 1), (0x13C, 1), (0x161, 1), (0x144, 1),
     (0x146, 1), (0xF3, 1), (0x14D, 1), (0xF5, 3), (0x173, 1), (0x142, 1), (0x15B, 1),
     (0x16B, 1), (0xFC, 1), (0x17C, 1), (0x17E, 1), (0x2019, 1)]
  | .latin8 =>
    [(0x80, 33), (0x1E02, 2), (0xA3, 1), (0x10A, 2), (0x1E0A, 1), (0xA7, 1), (0x1E80, 1),
     (0xA9, 1), (0x1E82, 1), (0x1E0B, 1), (0x1EF2, 1), (0xAD, 2), (0x178, 1), (0x1E1E, 2),
     (0x120, 2), (0x1E40, 2), (0xB6, 1), (0x1E56, 1), (0x1E81, 1), (0x1E57, 1), (0x1E83, 1),
     (0x1E60, 1), (0x1EF3, 1), (0x1E84, 2), (0x1E61, 1), (0xC0, 16), (0x174, 1), (0xD1, 6),
     (0x1E6A, 1), (0xD8, 6), (0x176, 1), (0xDF, 17), (0x175, 1), (0xF1, 6), (0x1E6B, 1),
     (0xF8, 6), (0x177, 1), (0xFF, 1)]
  | .latin9 =>
    [(0x80, 36), (0x20AC, 1), (0xA5, 1), (0x160, 1), (0xA7, 1), (0x161, 1), (0xA9, 11),
     (0x17D, 1), (0xB5, 3), (0x17E, 1), (0xB9, 3), (0x152, 2), (0x178, 1), (0xBF, 65)]
  | .latin10 =>
    [(0x80, 33), (0x104, 2), (0x141, 1), (0x20AC, 1), (0x201E, 1), (0x160, 1), (0xA7, 1),
     (0x161, 1), (0xA9, 1), (0x218, 1), (0xAB, 1), (0x179, 1), (0xAD, 1), (0x17A, 2), (0xB0, 2),
     (0x10C, 1), (0x142, 1), (0x17D, 1), (0x201D, 1), (0xB6, 2), (0x17E, 1), (0x10D, 1),
     (0x219, 1), (0xBB, 1), (0x152, 2), (0x178, 1), (0x17C, 1), (0xC0, 3), (0x102, 1),
     (0xC4, 1), (0x106, 1), (0xC6, 10), (0x110, 1), (0x143, 1), (0xD2, 3), (0x150, 1),
     (0xD6, 1), (0x15A, 1), (0x170, 1), (0xD9, 4), (0x118, 1), (0x21A, 1), (0xDF, 4),
     (0x103, 1), (0xE4, 1), (0x107, 1), (0xE6, 10), (0x111, 1), (0x144, 1), (0xF2, 3),
     (0x151, 1), (0xF6, 1), (0x15B, 1), (0x171, 1), (0xF9, 4), (0x119, 1), (0x21B, 1),
     (0xFF, 1)]
  | .koi8r =>
    [(0x2500, 1), (0x2502, 1), (0x250C, 1), (0x2510, 1), (0x2514, 1), (0x2518, 1), (0x251C, 1),
     (0x2524, 1), (0x252C, 1), (0x2534, 1), (0x253C, 1), (0x2580, 1), (0x2584, 1), (0x2588, 1),
     (0x258C, 1), (0x2590, 4), (0x2320, 1), (0x25A0, 1), (0x2219, 2), (0x2248, 1), (0x2264, 2),
     (0xA0, 1), (0x2321, 1), (0xB0, 1), (0xB2, 1), (0xB7, 1), (0xF7, 1), (0x2550, 3),
     (0x451, 1), (0x2553, 15), (0x401, 1), (0x2562, 11), (0xA9, 1), (0x44E, 1), (0x430, 2),
     (0x446, 1), (0x434, 2), (0x444, 1), (0x433, 1), (0x445, 1), (0x438, 8), (0x44F, 1),
     (0x440, 4), (0x436, 1), (0x432, 1), (0x44C, 1), (0x44B, 1), (0x437, 1), (0x448, 1),
     (0x44D, 1), (0x449, 1), (0x447, 1), (0x44A, 1), (0x42E, 1), (0x410, 2), (0x426, 1),
     (0x414, 2), (0x424, 1), (0x413, 1), (0x425, 1), (0x418, 8), (0x42F, 1), (0x420, 4),
     (0x416, 1), (0x412, 1), (0x42C, 1), (0x42B, 1), (0x417, 1), (0x428, 1), (0x42D, 1),
     (0x429, 1), (0x427, 1), (0x42A, 1)]
  | .koi8u =>
    [(0x2500, 1), (0x2502, 1), (0x250C, 1), (0x2510, 1), (0x2514, 1), (0x2518, 1), (0x251C, 1),
     (0x2524, 1), (0x252C, 1), (0x2534, 1), (0x253C, 1), (0x2580, 1), (0x2584, 1), (0x2588, 1),
     (0x258C, 1), (0x2590, 4), (0x2320, 1), (0x25A0, 1), (0x2219, 2), (0x2248, 1), (0x2264, 2),
     (0xA0, 1), (0x2321, 1), (0xB0, 1), (0xB2, 1), (0xB7, 1), (0xF7, 1), (0x2550, 3),
     (0x451, 1), (0x454, 1), (0x2554, 1), (0x456, 2), (0x2557, 5), (0x491, 1), (0x45E, 1),
     (0x255E, 4), (0x401, 1), (0x404, 1), (0x2563, 1), (0x406, 2), (0x2566, 5), (0x490, 1),
     (0x40E, 1), (0xA9, 1), (0x44E, 1), (0x430, 2), (0x446, 1), (0x434, 2), (0x444, 1),
     (0x433, 1), (0x445, 1), (0x438, 8), (0x44F, 1), (0x440, 4), (0x436, 1), (0x432, 1),
     (0x44C, 1), (0x44B, 1), (0x437, 1), (0x448, 1), (0x44D, 1), (0x449, 1), (0x447, 1),
     (0x44A, 1), (0x42E, 1), (0x410, 2), (0x426, 1), (0x414, 2), (0x424, 1), (0x413, 1),
     (0x425, 1), (0x418, 8), (0x42F, 1), (0x420, 4), (0x416, 1), (0x412, 1), (0x42C, 1),
     (0x42B, 1), (0x417, 1), (0x428, 1), (0x42D, 1), (0x429, 1), (0x427, 1), (0x42A, 1)]
  | .macintosh =>
    [(0xC4, 2), (0xC7, 1), (0xC9, 1), (0xD1, 1), (0xD6, 1), (0xDC, 1), (0xE1, 1), (0xE0, 1),
     (0xE2, 1), (0xE4, 1), (0xE3, 1), (0xE5, 1), (0xE7, 1), (0xE9, 1), (0xE8, 1), (0xEA, 2),
     (0xED, 1), (0xEC, 1), (0xEE, 2), (0xF1, 1), (0xF3, 1), (0xF2, 1), (0xF4, 1), (0xF6, 1),
     (0xF5, 1), (0xFA, 1), (0xF9, 1), (0xFB, 2), (0x2020, 1), (0xB0, 1), (0xA2, 2), (0xA7, 1),
     (0x2022, 1), (0xB6, 1), (0xDF, 1), (0xAE, 1), (0xA9, 1), (0x2122, 1), (0xB4, 1), (0xA8, 1),
     (0x2260, 1), (0xC6, 1), (0xD8, 1), (0x221E, 1), (0xB1, 1), (0x2264, 2), (0xA5, 1),
     (0xB5, 1), (0x2202, 1), (0x2211, 1), (0x220F, 1), (0x3C0, 1), (0x222B, 1), (0xAA, 1),
     (0xBA, 1), (0x3A9, 1), (0xE6, 1), (0xF8, 1), (0xBF, 1), (0xA1, 1), (0xAC, 1), (0x221A, 1),
     (0x192, 1), (0x2248, 1), (0x2206, 1), (0xAB, 1), (0xBB, 1), (0x2026, 1), (0xA0, 1),
     (0xC0, 1), (0xC3, 1), (0xD5, 1), (0x152, 2), (0x2013, 2), (0x201C, 2), (0x2018, 2),
     (0xF7, 1), (0x25CA, 1), (0xFF, 1), (0x178, 1), (0x2044, 1), (0x20AC, 1), (0x2039, 2),
     (0xFB01, 2), (0x2021, 1), (0xB7, 1), (0x201A, 1), (0x201E, 1), (0x2030, 1), (0xC2, 1),
     (0xCA, 1), (0xC1, 1), (0xCB, 1), (0xC8, 1), (0xCD, 3), (0xCC, 1), (0xD3, 2), (0xF8FF, 1),
     (0xD2, 1), (0xDA, 2), (0xD9, 1), (0x131, 1), (0x2C6, 1), (0x2DC, 1), (0xAF, 1), (0x2D8, 3),
     (0xB8, 1), (0x2DD, 1), (0x2DB, 1), (0x2C7, 1)]
  | .macCyrillic =>
    [(0x410, 32), (0x2020, 1), (0xB0, 1), (0x490, 1), (0xA3, 1), (0xA7, 1), (0x2022, 1),
     (0xB6, 1), (0x406, 1), (0xAE, 1), (0xA9, 1), (0x2122, 1), (0x402, 1), (0x452, 1),
     (0x2260, 1), (0x403, 1), (0x453, 1), (0x221E, 1), (0xB1, 1), (0x2264, 2), (0x456, 1),
     (0xB5, 1), (0x491, 1), (0x408, 1), (0x404, 1), (0x454, 1), (0x407, 1), (0x457, 1),
     (0x409, 1), (0x459, 1), (0x40A, 1), (0x45A, 1), (0x458, 1), (0x405, 1), (0xAC, 1),
     (0x221A, 1), (0x192, 1), (0x2248, 1), (0x2206, 1), (0xAB, 1), (0xBB, 1), (0x2026, 1),
     (0xA0, 1), (0x40B, 1), (0x45B, 1), (0x40C, 1), (0x45C, 1), (0x455, 1), (0x2013, 2),
     (0x201C, 2), (0x2018, 2), (0xF7, 1), (0x201E, 1), (0x40E, 1), (0x45E, 1), (0x40F, 1),
     (0x45F, 1), (0x2116, 1), (0x401, 1), (0x451, 1), (0x44F, 1), (0x430, 31), (0x20AC, 1)]
  | .windows874 =>
    [(0x20AC, 1), (0x81, 4), (0x2026, 1), (0x86, 11), (0x2018, 2), (0x201C, 2), (0x2022, 1),
     (0x2013, 2), (0x98, 9), (0xE01, 58), (0, 4), (0xE3F, 29), (0, 4)]
  | .windows1250 =>
    [(0x20AC, 1), (0x81, 1), (0x201A, 1), (0x83, 1), (0x201E, 1), (0x2026, 1), (0x2020, 2),
     (0x88, 1), (0x2030, 1), (0x160, 1), (0x2039, 1), (0x15A, 1), (0x164, 1), (0x17D, 1),
     (0x179, 1), (0x90, 1), (0x2018, 2), (0x201C, 2), (0x2022, 1), (0x2013, 2), (0x98, 1),
     (0x2122, 1), (0x161, 1), (0x203A, 1), (0x15B, 1), (0x165, 1), (0x17E, 1), (0x17A, 1),
     (0xA0, 1), (0x2C7, 1), (0x2D8, 1), (0x141, 1), (0xA4, 1), (0x104, 1), (0xA6, 4),
     (0x15E, 1), (0xAB, 4), (0x17B, 1), (0xB0, 2), (0x2DB, 1), (0x142, 1), (0xB4, 5),
     (0x105, 1), (0x15F, 1), (0xBB, 1), (0x13D, 1), (0x2DD, 1), (0x13E, 1), (0x17C, 1),
     (0x154, 1), (0xC1, 2), (0x102, 1), (0xC4, 1), (0x139, 1), (0x106, 1), (0xC7, 1),
     (0x10C, 1), (0xC9, 1), (0x118, 1), (0xCB, 1), (0x11A, 1), (0xCD, 2), (0x10E, 1),
     (0x110, 1), (0x143, 1), (0x147, 1), (0xD3, 2), (0x150, 1), (0xD6, 2), (0x158, 1),
     (0x16E, 1), (0xDA, 1), (0x170, 1), (0xDC, 2), (0x162, 1), (0xDF, 1), (0x155, 1), (0xE1, 2),
     (0x103, 1), (0xE4, 1), (0x13A, 1), (0x107, 1), (0xE7, 1), (0x10D, 1), (0xE9, 1),
     (0x119, 1), (0xEB, 1), (0x11B, 1), (0xED, 2), (0x10F, 1), (0x111, 1), (0x144, 1),
     (0x148, 1), (0xF3, 2), (0x151, 1), (0xF6, 2), (0x159, 1), (0x16F, 1), (0xFA, 1),
     (0x171, 1), (0xFC, 2), (0x163, 1), (0x2D9, 1)]
  | .windows1251 =>
    [(0x402, 2), (0x201A, 1), (0x453, 1), (0x201E, 1), (0x2026, 1), (0x2020, 2), (0x20AC, 1),
     (0x2030, 1), (0x409, 1), (0x2039, 1), (0x40A, 1), (0x40C, 1), (0x40B, 1), (0x40F, 1),
     (0x452, 1), (0x2018, 2), (0x201C, 2), (0x2022, 1), (0x2013, 2), (0x98, 1), (0x2122, 1),
     (0x459, 1), (0x203A, 1), (0x45A, 1), (0x45C, 1), (0x45B, 1), (0x45F, 1), (0xA0, 1),
     (0x40E, 1), (0x45E, 1), (0x408, 1), (0xA4, 1), (0x490, 1), (0xA6, 2), (0x401, 1),
     (0xA9, 1), (0x404, 1), (0xAB, 4), (0x407, 1), (0xB0, 2), (0x406, 1), (0x456, 1),
     (0x491, 1), (0xB5, 3), (0x451, 1), (0x2116, 1), (0x454, 1), (0xBB, 1), (0x458, 1),
     (0x405, 1), (0x455, 1), (0x457, 1), (0x410, 64)]
  | .windows1252 =>
    [(0x20AC, 1), (0x81, 1), (0x201A, 1), (0x192, 1), (0x201E, 1), (0x2026, 1), (0x2020, 2),
     (0x2C6, 1), (0x2030, 1), (0x160, 1), (0x2039, 1), (0x152, 1), (0x8D, 1), (0x17D, 1),
     (0x8F, 2), (0x2018, 2), (0x201C, 2), (0x2022, 1), (0x2013, 2), (0x2DC, 1), (0x2122, 1),
     (0x161, 1), (0x203A, 1), (0x153, 1), (0x9D, 1), (0x17E, 1), (0x178, 1), (0xA0, 96)]
  | .windows1253 =>
    [(0x20AC, 1), (0x81, 1), (0x201A, 1), (0x192, 1), (0x201E, 1), (0x2026, 1), (0x2020, 2),
     (0x88, 1), (0x2030, 1), (0x8A, 1), (0x2039, 1), (0x8C, 5), (0x2018, 2), (0x201C, 2),
     (0x2022, 1), (0x2013, 2), (0x98, 1), (0x2122, 1), (0x9A, 1), (0x203A, 1), (0x9C, 5),
     (0x385, 2), (0xA3, 7), (0, 1), (0xAB, 4), (0x2015, 1), (0xB0, 4), (0x384, 1), (0xB5, 3),
     (0x388, 3), (0xBB, 1), (0x38C, 1), (0xBD, 1), (0x38E, 20), (0, 1), (0x3A3, 44), (0, 1)]
  | .windows1254 =>
    [(0x20AC, 1), (0x81, 1), (0x201A, 1), (0x192, 1), (0x201E, 1), (0x2026, 1), (0x2020, 2),
     (0x2C6, 1), (0x2030, 1), (0x160, 1), (0x2039, 1), (0x152, 1), (0x8D, 4), (0x2018, 2),
     (0x201C, 2), (0x2022, 1), (0x2013, 2), (0x2DC, 1), (0x2122, 1), (0x161, 1), (0x203A, 1),
     (0x153, 1), (0x9D, 2), (0x178, 1), (0xA0, 48), (0x11E, 1), (0xD1, 12), (0x130, 1),
     (0x15E, 1), (0xDF, 17), (0x11F, 1), (0xF1, 12), (0x131, 1), (0x15F, 1), (0xFF, 1)]
  | .windows1255 =>
    [(0x20AC, 1), (0x81, 1), (0x201A, 1), (0x192, 1), (0x201E, 1), (0x2026, 1), (0x2020, 2),
     (0x2C6, 1), (0x2030, 1), (0x8A, 1), (0x2039, 1), (0x8C, 5), (0x2018, 2), (0x201C, 2),
     (0x2022, 1), (0x2013, 2), (0x2DC, 1), (0x2122, 1), (0x9A, 1), (0x203A, 1), (0x9C, 8),
     (0x20AA, 1), (0xA5, 5), (0xD7, 1), (0xAB, 15), (0xF7, 1), (0xBB, 5), (0x5B0, 20),
     (0x5F0, 5), (0, 7), (0x5D0, 27), (0, 2), (0x200E, 2), (0, 1)]
  | .windows1256 =>
    [(0x20AC, 1), (0x67E, 1), (0x201A, 1), (0x192, 1), (0x201E, 1), (0x2026, 1), (0x2020, 2),
     (0x2C6, 1), (0x2030, 1), (0x679, 1), (0x2039, 1), (0x152, 1), (0x686, 1), (0x698, 1),
     (0x688, 1), (0x6AF, 1), (0x2018, 2), (0x201C, 2), (0x2022, 1), (0x2013, 2), (0x6A9, 1),
     (0x2122, 1), (0x691, 1), (0x203A, 1), (0x153, 1), (0x200C, 2), (0x6BA, 1), (0xA0, 1),
     (0x60C, 1), (0xA2, 8), (0x6BE, 1), (0xAB, 15), (0x61B, 1), (0xBB, 4), (0x61F, 1),
     (0x6C1, 1), (0x621, 22), (0xD7, 1), (0x637, 4), (0x640, 4), (0xE0, 1), (0x644, 1),
     (0xE2, 1), (0x645, 4), (0xE7, 5), (0x649, 2), (0xEE, 2), (0x64B, 4), (0xF4, 1), (0x64F, 2),
     (0xF7, 1), (0x651, 1), (0xF9, 1), (0x652, 1), (0xFB, 2), (0x200E, 2), (0x6D2, 1)]
  | .windows1257 =>
    [(0x20AC, 1), (0x81, 1), (0x201A, 1), (0x83, 1), (0x201E, 1), (0x2026, 1), (0x2020, 2),
     (0x88, 1), (0x2030, 1), (0x8A, 1), (0x2039, 1), (0x8C, 1), (0xA8, 1), (0x2C7, 1),
     (0xB8, 1), (0x90, 1), (0x2018, 2), (0x201C, 2), (0x2022, 1), (0x2013, 2), (0x98, 1),
     (0x2122, 1), (0x9A, 1), (0x203A, 1), (0x9C, 1), (0xAF, 1), (0x2DB, 1), (0x9F, 2), (0, 1),
     (0xA2, 3), (0, 1), (0xA6, 2), (0xD8, 1), (0xA9, 1), (0x156, 1), (0xAB, 4), (0xC6, 1),
     (0xB0, 8), (0xF8, 1), (0xB9, 1), (0x157, 1), (0xBB, 4), (0xE6, 1), (0x104, 1), (0x12E, 1),
     (0x100, 1), (0x106, 1), (0xC4, 2), (0x118, 1), (0x112, 1), (0x10C, 1), (0xC9, 1),
     (0x179, 1), (0x116, 1), (0x122, 1), (0x136, 1), (0x12A, 1), (0x13B, 1), (0x160, 1),
     (0x143, 1), (0x145, 1), (0xD3, 1), (0x14C, 1), (0xD5, 3), (0x172, 1), (0x141, 1),
     (0x15A, 1), (0x16A, 1), (0xDC, 1), (0x17B, 1), (0x17D, 1), (0xDF, 1), (0x105, 1),
     (0x12F, 1), (0x101, 1), (0x107, 1), (0xE4, 2), (0x119, 1), (0x113, 1), (0x10D, 1),
     (0xE9, 1), (0x17A, 1), (0x117, 1), (0x123, 1), (0x137, 1), (0x12B, 1), (0x13C, 1),
     (0x161, 1), (0x144, 1), (0x146, 1), (0xF3, 1), (0x14D, 1), (0xF5, 3), (0x173, 1),
     (0x142, 1), (0x15B, 1), (0x16B, 1), (0xFC, 1), (0x17C, 1), (0x17E, 1), (0x2D9, 1)]
  | .windows1258 =>
    [(0x20AC, 1), (0x81, 1), (0x201A, 1), (0x192, 1), (0x201E, 1), (0x2026, 1), (0x2020, 2),
     (0x2C6, 1), (0x2030, 1), (0x8A, 1), (0x2039, 1), (0x152, 1), (0x8D, 4), (0x2018, 2),
     (0x201C, 2), (0x2022, 1), (0x2013, 2), (0x2DC, 1), (0x2122, 1), (0x9A, 1), (0x203A, 1),
     (0x153, 1), (0x9D, 2), (0x178, 1), (0xA0, 35), (0x102, 1), (0xC4, 8), (0x300, 1),
     (0xCD, 3), (0x110, 1), (0xD1, 1), (0x309, 1), (0xD3, 2), (0x1A0, 1), (0xD6, 7), (0x1AF, 1),
     (0x303, 1), (0xDF, 4), (0x103, 1), (0xE4, 8), (0x301, 1), (0xED, 3), (0x111, 1), (0xF1, 1),
     (0x323, 1), (0xF3, 2), (0x1A1, 1), (0xF6, 7), (0x1B0, 1), (0x20AB, 1), (0xFF, 1)]

/-- The code point at the place `n` of some runs like those of `upperHalf`. -/
def inRuns? : List (Nat × Nat) → Nat → Option Nat
  | [], _ => none
  | (first, count) :: rest, n =>
    if n < count then (if first = 0 then none else some (first + n)) else inRuns? rest (n - count)

/-- The character of the byte `b` in `page`. -/
def char? (page : CodePage) (b : UInt8) : Option Char :=
  if b.toNat < 0x80 then some (Char.ofNat b.toNat)
  else (inRuns? page.upperHalf (b.toNat - 0x80)).map Char.ofNat

/-- The labels of each `CodePage`, in lower case. -/
def labels : List (CodePage × List String) :=
  [(.ibm866,
     ["866", "cp866", "csibm866", "ibm866"]),
   (.latin2,
     ["csisolatin2", "iso-8859-2", "iso-ir-101", "iso8859-2", "iso88592", "iso_8859-2",
      "iso_8859-2:1987", "l2", "latin2"]),
   (.latin3,
     ["csisolatin3", "iso-8859-3", "iso-ir-109", "iso8859-3", "iso88593", "iso_8859-3",
      "iso_8859-3:1988", "l3", "latin3"]),
   (.latin4,
     ["csisolatin4", "iso-8859-4", "iso-ir-110", "iso8859-4", "iso88594", "iso_8859-4",
      "iso_8859-4:1988", "l4", "latin4"]),
   (.isoCyrillic,
     ["csisolatincyrillic", "cyrillic", "iso-8859-5", "iso-ir-144", "iso8859-5", "iso88595",
      "iso_8859-5", "iso_8859-5:1988"]),
   (.isoArabic,
     ["arabic", "asmo-708", "csiso88596e", "csiso88596i", "csisolatinarabic", "ecma-114",
      "iso-8859-6", "iso-8859-6-e", "iso-8859-6-i", "iso-ir-127", "iso8859-6", "iso88596",
      "iso_8859-6", "iso_8859-6:1987"]),
   (.isoGreek,
     ["csisolatingreek", "ecma-118", "elot_928", "greek", "greek8", "iso-8859-7", "iso-ir-126",
      "iso8859-7", "iso88597", "iso_8859-7", "iso_8859-7:1987", "sun_eu_greek"]),
   (.isoHebrew,
     ["csiso88598e", "csisolatinhebrew", "hebrew", "iso-8859-8", "iso-8859-8-e", "iso-ir-138",
      "iso8859-8", "iso88598", "iso_8859-8", "iso_8859-8:1988", "visual", "csiso88598i",
      "iso-8859-8-i", "logical"]),
   (.latin6,
     ["csisolatin6", "iso-8859-10", "iso-ir-157", "iso8859-10", "iso885910", "l6", "latin6"]),
   (.latin7,
     ["iso-8859-13", "iso8859-13", "iso885913"]),
   (.latin8,
     ["iso-8859-14", "iso8859-14", "iso885914"]),
   (.latin9,
     ["csisolatin9", "iso-8859-15", "iso8859-15", "iso885915", "iso_8859-15", "l9"]),
   (.latin10,
     ["iso-8859-16"]),
   (.koi8r,
     ["cskoi8r", "koi", "koi8", "koi8-r", "koi8_r"]),
   (.koi8u,
     ["koi8-ru", "koi8-u"]),
   (.macintosh,
     ["csmacintosh", "mac", "macintosh", "x-mac-roman"]),
   (.macCyrillic,
     ["x-mac-cyrillic", "x-mac-ukrainian"]),
   (.windows874,
     ["dos-874", "iso-8859-11", "iso8859-11", "iso885911", "tis-620", "windows-874"]),
   (.windows1250,
     ["cp1250", "windows-1250", "x-cp1250"]),
   (.windows1251,
     ["cp1251", "windows-1251", "x-cp1251"]),
   (.windows1252,
     ["ansi_x3.4-1968", "ascii", "cp1252", "cp819", "csisolatin1", "ibm819", "iso-8859-1",
      "iso-ir-100", "iso8859-1", "iso88591", "iso_8859-1", "iso_8859-1:1987", "l1", "latin1",
      "us-ascii", "windows-1252", "x-cp1252"]),
   (.windows1253,
     ["cp1253", "windows-1253", "x-cp1253"]),
   (.windows1254,
     ["cp1254", "csisolatin5", "iso-8859-9", "iso-ir-148", "iso8859-9", "iso88599",
      "iso_8859-9", "iso_8859-9:1989", "l5", "latin5", "windows-1254", "x-cp1254"]),
   (.windows1255,
     ["cp1255", "windows-1255", "x-cp1255"]),
   (.windows1256,
     ["cp1256", "windows-1256", "x-cp1256"]),
   (.windows1257,
     ["cp1257", "windows-1257", "x-cp1257"]),
   (.windows1258,
     ["cp1258", "windows-1258", "x-cp1258"])]

end CodePage

end Livery.Markup
