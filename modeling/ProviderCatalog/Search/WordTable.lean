import ProviderCatalog.Text.CaseTable

/-!
# Characters of words

The characters that words are made of when a text is indexed, namely letters, numbers and the code
points that Unicode 6.1 leaves private or unassigned, and how they are folded: capitals become
small, and letters lose the marks that they carry.

## Main definitions

* `wordRanges`: the characters that make words.
* `smallRuns`, `markedLetters`: the two steps of folding.
* `joiningMarks`: the marks inside a word that folding removes.
-/

namespace ProviderCatalog.Search

open Text (CaseRun)

/-- The characters that make words, as closed ranges in ascending order. -/
def wordRanges : List (Nat × Nat) := [
  (0x30, 0x39), (0x41, 0x5A), (0x61, 0x7A), (0xAA, 0xAA), (0xB2, 0xB3), (0xB5, 0xB5), (0xB9, 0xBA),
  (0xBC, 0xBE), (0xC0, 0xD6), (0xD8, 0xF6), (0xF8, 0x2C1), (0x2C6, 0x2D1), (0x2E0, 0x2E4),
  (0x2EC, 0x2EC), (0x2EE, 0x2EE), (0x370, 0x374), (0x376, 0x37D), (0x37F, 0x383), (0x386, 0x386),
  (0x388, 0x3F5), (0x3F7, 0x481), (0x48A, 0x559), (0x560, 0x588), (0x58B, 0x58E), (0x590, 0x590),
  (0x5C8, 0x5F2), (0x5F5, 0x5FF), (0x605, 0x605), (0x61C, 0x61D), (0x620, 0x64A), (0x660, 0x669),
  (0x66E, 0x66F), (0x671, 0x6D3), (0x6D5, 0x6D5), (0x6E5, 0x6E6), (0x6EE, 0x6FC), (0x6FF, 0x6FF),
  (0x70E, 0x70E), (0x710, 0x710), (0x712, 0x72F), (0x74B, 0x7A5), (0x7B1, 0x7EA), (0x7F4, 0x7F5),
  (0x7FA, 0x815), (0x81A, 0x81A), (0x824, 0x824), (0x828, 0x828), (0x82E, 0x82F), (0x83F, 0x858),
  (0x85C, 0x85D), (0x85F, 0x8E3), (0x8FF, 0x8FF), (0x904, 0x939), (0x93D, 0x93D), (0x950, 0x950),
  (0x958, 0x961), (0x966, 0x96F), (0x971, 0x980), (0x984, 0x9BB), (0x9BD, 0x9BD), (0x9C5, 0x9C6),
  (0x9C9, 0x9CA), (0x9CE, 0x9D6), (0x9D8, 0x9E1), (0x9E4, 0x9F1), (0x9F4, 0x9F9), (0x9FC, 0xA00),
  (0xA04, 0xA3B), (0xA3D, 0xA3D), (0xA43, 0xA46), (0xA49, 0xA4A), (0xA4E, 0xA50), (0xA52, 0xA6F),
  (0xA72, 0xA74), (0xA76, 0xA80), (0xA84, 0xABB), (0xABD, 0xABD), (0xAC6, 0xAC6), (0xACA, 0xACA),
  (0xACE, 0xAE1), (0xAE4, 0xAEF), (0xAF2, 0xB00), (0xB04, 0xB3B), (0xB3D, 0xB3D), (0xB45, 0xB46),
  (0xB49, 0xB4A), (0xB4E, 0xB55), (0xB58, 0xB61), (0xB64, 0xB6F), (0xB71, 0xB81), (0xB83, 0xBBD),
  (0xBC3, 0xBC5), (0xBC9, 0xBC9), (0xBCE, 0xBD6), (0xBD8, 0xBF2), (0xBFB, 0xC00), (0xC04, 0xC3D),
  (0xC45, 0xC45), (0xC49, 0xC49), (0xC4E, 0xC54), (0xC57, 0xC61), (0xC64, 0xC7E), (0xC80, 0xC81),
  (0xC84, 0xCBB), (0xCBD, 0xCBD), (0xCC5, 0xCC5), (0xCC9, 0xCC9), (0xCCE, 0xCD4), (0xCD7, 0xCE1),
  (0xCE4, 0xD01), (0xD04, 0xD3D), (0xD45, 0xD45), (0xD49, 0xD49), (0xD4E, 0xD56), (0xD58, 0xD61),
  (0xD64, 0xD78), (0xD7A, 0xD81), (0xD84, 0xDC9), (0xDCB, 0xDCE), (0xDD5, 0xDD5), (0xDD7, 0xDD7),
  (0xDE0, 0xDF1), (0xDF5, 0xE30), (0xE32, 0xE33), (0xE3B, 0xE3E), (0xE40, 0xE46), (0xE50, 0xE59),
  (0xE5C, 0xEB0), (0xEB2, 0xEB3), (0xEBA, 0xEBA), (0xEBD, 0xEC7), (0xECE, 0xF00), (0xF20, 0xF33),
  (0xF40, 0xF70), (0xF88, 0xF8C), (0xF98, 0xF98), (0xFBD, 0xFBD), (0xFCD, 0xFCD), (0xFDB, 0x102A),
  (0x103F, 0x1049), (0x1050, 0x1055), (0x105A, 0x105D), (0x1061, 0x1061), (0x1065, 0x1066),
  (0x106E, 0x1070), (0x1075, 0x1081), (0x108E, 0x108E), (0x1090, 0x1099), (0x10A0, 0x10FA),
  (0x10FC, 0x135C), (0x1369, 0x138F), (0x139A, 0x13FF), (0x1401, 0x166C), (0x166F, 0x167F),
  (0x1681, 0x169A), (0x169D, 0x16EA), (0x16EE, 0x1711), (0x1715, 0x1731), (0x1737, 0x1751),
  (0x1754, 0x1771), (0x1774, 0x17B3), (0x17D7, 0x17D7), (0x17DC, 0x17DC), (0x17DE, 0x17FF),
  (0x180F, 0x18A8), (0x18AA, 0x191F), (0x192C, 0x192F), (0x193C, 0x193F), (0x1941, 0x1943),
  (0x1946, 0x19AF), (0x19C1, 0x19C7), (0x19CA, 0x19DD), (0x1A00, 0x1A16), (0x1A1C, 0x1A1D),
  (0x1A20, 0x1A54), (0x1A5F, 0x1A5F), (0x1A7D, 0x1A7E), (0x1A80, 0x1A9F), (0x1AA7, 0x1AA7),
  (0x1AAE, 0x1AFF), (0x1B05, 0x1B33), (0x1B45, 0x1B59), (0x1B7D, 0x1B7F), (0x1B83, 0x1BA0),
  (0x1BAE, 0x1BE5), (0x1BF4, 0x1BFB), (0x1C00, 0x1C23), (0x1C38, 0x1C3A), (0x1C40, 0x1C7D),
  (0x1C80, 0x1CBF), (0x1CC8, 0x1CCF), (0x1CE9, 0x1CEC), (0x1CEE, 0x1CF1), (0x1CF5, 0x1DBF),
  (0x1DE7, 0x1DFB), (0x1E00, 0x1FBC), (0x1FBE, 0x1FBE), (0x1FC2, 0x1FCC), (0x1FD0, 0x1FDC),
  (0x1FE0, 0x1FEC), (0x1FF0, 0x1FFC), (0x1FFF, 0x1FFF), (0x2065, 0x2069), (0x2070, 0x2079),
  (0x207F, 0x2089), (0x208F, 0x209F), (0x20BA, 0x20CF), (0x20F1, 0x20FF), (0x2102, 0x2102),
  (0x2107, 0x2107), (0x210A, 0x2113), (0x2115, 0x2115), (0x2119, 0x211D), (0x2124, 0x2124),
  (0x2126, 0x2126), (0x2128, 0x2128), (0x212A, 0x212D), (0x212F, 0x2139), (0x213C, 0x213F),
  (0x2145, 0x2149), (0x214E, 0x214E), (0x2150, 0x218F), (0x23F4, 0x23FF), (0x2427, 0x243F),
  (0x244B, 0x249B), (0x24EA, 0x24FF), (0x2700, 0x2700), (0x2776, 0x2793), (0x2B4D, 0x2B4F),
  (0x2B5A, 0x2CE4), (0x2CEB, 0x2CEE), (0x2CF2, 0x2CF8), (0x2CFD, 0x2CFD), (0x2D00, 0x2D6F),
  (0x2D71, 0x2D7E), (0x2D80, 0x2DDF), (0x2E2F, 0x2E2F), (0x2E3C, 0x2E7F), (0x2E9A, 0x2E9A),
  (0x2EF4, 0x2EFF), (0x2FD6, 0x2FEF), (0x2FFC, 0x2FFF), (0x3005, 0x3007), (0x3021, 0x3029),
  (0x3031, 0x3035), (0x3038, 0x303C), (0x3040, 0x3098), (0x309D, 0x309F), (0x30A1, 0x30FA),
  (0x30FC, 0x318F), (0x3192, 0x3195), (0x31A0, 0x31BF), (0x31E4, 0x31FF), (0x321F, 0x3229),
  (0x3248, 0x324F), (0x3251, 0x325F), (0x3280, 0x3289), (0x32B1, 0x32BF), (0x32FF, 0x32FF),
  (0x3400, 0x4DBF), (0x4E00, 0xA48F), (0xA4C7, 0xA4FD), (0xA500, 0xA60C), (0xA610, 0xA66E),
  (0xA67F, 0xA69E), (0xA6A0, 0xA6EF), (0xA6F8, 0xA6FF), (0xA717, 0xA71F), (0xA722, 0xA788),
  (0xA78B, 0xA801), (0xA803, 0xA805), (0xA807, 0xA80A), (0xA80C, 0xA822), (0xA82C, 0xA835),
  (0xA83A, 0xA873), (0xA878, 0xA87F), (0xA882, 0xA8B3), (0xA8C5, 0xA8CD), (0xA8D0, 0xA8DF),
  (0xA8F2, 0xA8F7), (0xA8FB, 0xA925), (0xA930, 0xA946), (0xA954, 0xA95E), (0xA960, 0xA97F),
  (0xA984, 0xA9B2), (0xA9CE, 0xA9DD), (0xA9E0, 0xAA28), (0xAA37, 0xAA42), (0xAA44, 0xAA4B),
  (0xAA4E, 0xAA5B), (0xAA60, 0xAA76), (0xAA7A, 0xAA7A), (0xAA7C, 0xAAAF), (0xAAB1, 0xAAB1),
  (0xAAB5, 0xAAB6), (0xAAB9, 0xAABD), (0xAAC0, 0xAAC0), (0xAAC2, 0xAADD), (0xAAE0, 0xAAEA),
  (0xAAF2, 0xAAF4), (0xAAF7, 0xABE2), (0xABEE, 0xD7FF), (0xE000, 0xFB1D), (0xFB1F, 0xFB28),
  (0xFB2A, 0xFBB1), (0xFBC2, 0xFD3D), (0xFD40, 0xFDFB), (0xFDFE, 0xFDFF), (0xFE1A, 0xFE1F),
  (0xFE27, 0xFE2F), (0xFE53, 0xFE53), (0xFE67, 0xFE67), (0xFE6C, 0xFEFE), (0xFF00, 0xFF00),
  (0xFF10, 0xFF19), (0xFF21, 0xFF3A), (0xFF41, 0xFF5A), (0xFF66, 0xFFDF), (0xFFE7, 0xFFE7),
  (0xFFEF, 0xFFF8), (0x10000, 0x100FF), (0x10103, 0x10136), (0x10140, 0x10178), (0x1018A, 0x1018F),
  (0x1019C, 0x101CF), (0x101FE, 0x1039E), (0x103A0, 0x103CF), (0x103D1, 0x10856),
  (0x10858, 0x1091E), (0x10920, 0x1093E), (0x10940, 0x10A00), (0x10A04, 0x10A04),
  (0x10A07, 0x10A0B), (0x10A10, 0x10A37), (0x10A3B, 0x10A3E), (0x10A40, 0x10A4F),
  (0x10A59, 0x10A7E), (0x10A80, 0x10B38), (0x10B40, 0x10FFF), (0x11003, 0x11037),
  (0x1104E, 0x1107F), (0x11083, 0x110AF), (0x110C2, 0x110FF), (0x11103, 0x11126),
  (0x11135, 0x1113F), (0x11144, 0x1117F), (0x11183, 0x111B2), (0x111C1, 0x111C4),
  (0x111C9, 0x116AA), (0x116B8, 0x1246F), (0x12474, 0x16F50), (0x16F7F, 0x16F8E),
  (0x16F93, 0x1CFFF), (0x1D0F6, 0x1D0FF), (0x1D127, 0x1D128), (0x1D1DE, 0x1D1FF),
  (0x1D246, 0x1D2FF), (0x1D357, 0x1D6C0), (0x1D6C2, 0x1D6DA), (0x1D6DC, 0x1D6FA),
  (0x1D6FC, 0x1D714), (0x1D716, 0x1D734), (0x1D736, 0x1D74E), (0x1D750, 0x1D76E),
  (0x1D770, 0x1D788), (0x1D78A, 0x1D7A8), (0x1D7AA, 0x1D7C2), (0x1D7C4, 0x1EEEF),
  (0x1EEF2, 0x1EFFF), (0x1F02C, 0x1F02F), (0x1F094, 0x1F09F), (0x1F0AF, 0x1F0B0),
  (0x1F0BF, 0x1F0C0), (0x1F0D0, 0x1F0D0), (0x1F0E0, 0x1F10F), (0x1F12F, 0x1F12F),
  (0x1F16C, 0x1F16F), (0x1F19B, 0x1F1E5), (0x1F203, 0x1F20F), (0x1F23B, 0x1F23F),
  (0x1F249, 0x1F24F), (0x1F252, 0x1F2FF), (0x1F321, 0x1F32F), (0x1F336, 0x1F336),
  (0x1F37D, 0x1F37F), (0x1F394, 0x1F39F), (0x1F3C5, 0x1F3C5), (0x1F3CB, 0x1F3DF),
  (0x1F3F1, 0x1F3FF), (0x1F43F, 0x1F43F), (0x1F441, 0x1F441), (0x1F4F8, 0x1F4F8),
  (0x1F4FD, 0x1F4FF), (0x1F53E, 0x1F53F), (0x1F544, 0x1F54F), (0x1F568, 0x1F5FA),
  (0x1F641, 0x1F644), (0x1F650, 0x1F67F), (0x1F6C6, 0x1F6FF), (0x1F774, 0xE0000),
  (0xE0002, 0xE001F), (0xE0080, 0xE00FF), (0xE01F0, 0x10FFFF)]

/-- The characters outside ASCII that become small. -/
def smallRuns : List CaseRun := [
  ⟨0xC0, 0xD6, 1, 32⟩, ⟨0xD8, 0xDE, 1, 32⟩, ⟨0x100, 0x12E, 2, 1⟩, ⟨0x132, 0x136, 2, 1⟩,
  ⟨0x139, 0x147, 2, 1⟩, ⟨0x14A, 0x176, 2, 1⟩, ⟨0x178, 0x178, 1, -121⟩, ⟨0x179, 0x17D, 2, 1⟩,
  ⟨0x181, 0x181, 1, 210⟩, ⟨0x182, 0x184, 2, 1⟩, ⟨0x186, 0x186, 1, 206⟩, ⟨0x187, 0x187, 1, 1⟩,
  ⟨0x189, 0x18A, 1, 205⟩, ⟨0x18B, 0x18B, 1, 1⟩, ⟨0x18E, 0x18E, 1, 79⟩, ⟨0x18F, 0x18F, 1, 202⟩,
  ⟨0x190, 0x190, 1, 203⟩, ⟨0x191, 0x191, 1, 1⟩, ⟨0x193, 0x193, 1, 205⟩, ⟨0x194, 0x194, 1, 207⟩,
  ⟨0x196, 0x196, 1, 211⟩, ⟨0x197, 0x197, 1, 209⟩, ⟨0x198, 0x198, 1, 1⟩, ⟨0x19C, 0x19C, 1, 211⟩,
  ⟨0x19D, 0x19D, 1, 213⟩, ⟨0x19F, 0x19F, 1, 214⟩, ⟨0x1A0, 0x1A4, 2, 1⟩, ⟨0x1A6, 0x1A6, 1, 218⟩,
  ⟨0x1A7, 0x1A7, 1, 1⟩, ⟨0x1A9, 0x1A9, 1, 218⟩, ⟨0x1AC, 0x1AC, 1, 1⟩, ⟨0x1AE, 0x1AE, 1, 218⟩,
  ⟨0x1AF, 0x1AF, 1, 1⟩, ⟨0x1B1, 0x1B2, 1, 217⟩, ⟨0x1B3, 0x1B5, 2, 1⟩, ⟨0x1B7, 0x1B7, 1, 219⟩,
  ⟨0x1B8, 0x1B8, 1, 1⟩, ⟨0x1BC, 0x1BC, 1, 1⟩, ⟨0x1C4, 0x1C4, 1, 2⟩, ⟨0x1C5, 0x1C5, 1, 1⟩,
  ⟨0x1C7, 0x1C7, 1, 2⟩, ⟨0x1C8, 0x1C8, 1, 1⟩, ⟨0x1CA, 0x1CA, 1, 2⟩, ⟨0x1CB, 0x1DB, 2, 1⟩,
  ⟨0x1DE, 0x1EE, 2, 1⟩, ⟨0x1F1, 0x1F1, 1, 2⟩, ⟨0x1F2, 0x1F4, 2, 1⟩, ⟨0x1F6, 0x1F6, 1, -97⟩,
  ⟨0x1F7, 0x1F7, 1, -56⟩, ⟨0x1F8, 0x21E, 2, 1⟩, ⟨0x220, 0x220, 1, -130⟩, ⟨0x222, 0x232, 2, 1⟩,
  ⟨0x23A, 0x23A, 1, 10795⟩, ⟨0x23B, 0x23B, 1, 1⟩, ⟨0x23D, 0x23D, 1, -163⟩,
  ⟨0x23E, 0x23E, 1, 10792⟩, ⟨0x241, 0x241, 1, 1⟩, ⟨0x243, 0x243, 1, -195⟩, ⟨0x244, 0x244, 1, 69⟩,
  ⟨0x245, 0x245, 1, 71⟩, ⟨0x246, 0x24E, 2, 1⟩, ⟨0x370, 0x372, 2, 1⟩, ⟨0x376, 0x376, 1, 1⟩,
  ⟨0x386, 0x386, 1, 38⟩, ⟨0x388, 0x38A, 1, 37⟩, ⟨0x38C, 0x38C, 1, 64⟩, ⟨0x38E, 0x38F, 1, 63⟩,
  ⟨0x391, 0x3A1, 1, 32⟩, ⟨0x3A3, 0x3AB, 1, 32⟩, ⟨0x3CF, 0x3CF, 1, 8⟩, ⟨0x3D8, 0x3EE, 2, 1⟩,
  ⟨0x3F4, 0x3F4, 1, -60⟩, ⟨0x3F7, 0x3F7, 1, 1⟩, ⟨0x3F9, 0x3F9, 1, -7⟩, ⟨0x3FA, 0x3FA, 1, 1⟩,
  ⟨0x3FD, 0x3FF, 1, -130⟩, ⟨0x400, 0x40F, 1, 80⟩, ⟨0x410, 0x42F, 1, 32⟩, ⟨0x460, 0x480, 2, 1⟩,
  ⟨0x48A, 0x4BE, 2, 1⟩, ⟨0x4C0, 0x4C0, 1, 15⟩, ⟨0x4C1, 0x4CD, 2, 1⟩, ⟨0x4D0, 0x526, 2, 1⟩,
  ⟨0x531, 0x556, 1, 48⟩, ⟨0x10A0, 0x10C5, 1, 7264⟩, ⟨0x10C7, 0x10C7, 1, 7264⟩,
  ⟨0x10CD, 0x10CD, 1, 7264⟩, ⟨0x1E00, 0x1E94, 2, 1⟩, ⟨0x1E9E, 0x1E9E, 1, -7615⟩,
  ⟨0x1EA0, 0x1EFE, 2, 1⟩, ⟨0x1F08, 0x1F0F, 1, -8⟩, ⟨0x1F18, 0x1F1D, 1, -8⟩,
  ⟨0x1F28, 0x1F2F, 1, -8⟩, ⟨0x1F38, 0x1F3F, 1, -8⟩, ⟨0x1F48, 0x1F4D, 1, -8⟩,
  ⟨0x1F59, 0x1F5F, 2, -8⟩, ⟨0x1F68, 0x1F6F, 1, -8⟩, ⟨0x1F88, 0x1F8F, 1, -8⟩,
  ⟨0x1F98, 0x1F9F, 1, -8⟩, ⟨0x1FA8, 0x1FAF, 1, -8⟩, ⟨0x1FB8, 0x1FB9, 1, -8⟩,
  ⟨0x1FBA, 0x1FBB, 1, -74⟩, ⟨0x1FBC, 0x1FBC, 1, -9⟩, ⟨0x1FC8, 0x1FCB, 1, -86⟩,
  ⟨0x1FCC, 0x1FCC, 1, -9⟩, ⟨0x1FD8, 0x1FD9, 1, -8⟩, ⟨0x1FDA, 0x1FDB, 1, -100⟩,
  ⟨0x1FE8, 0x1FE9, 1, -8⟩, ⟨0x1FEA, 0x1FEB, 1, -112⟩, ⟨0x1FEC, 0x1FEC, 1, -7⟩,
  ⟨0x1FF8, 0x1FF9, 1, -128⟩, ⟨0x1FFA, 0x1FFB, 1, -126⟩, ⟨0x1FFC, 0x1FFC, 1, -9⟩,
  ⟨0x2126, 0x2126, 1, -7517⟩, ⟨0x212A, 0x212A, 1, -8383⟩, ⟨0x212B, 0x212B, 1, -8262⟩,
  ⟨0x2132, 0x2132, 1, 28⟩, ⟨0x2160, 0x216F, 1, 16⟩, ⟨0x2183, 0x2183, 1, 1⟩,
  ⟨0x2C00, 0x2C2E, 1, 48⟩, ⟨0x2C60, 0x2C60, 1, 1⟩, ⟨0x2C62, 0x2C62, 1, -10743⟩,
  ⟨0x2C63, 0x2C63, 1, -3814⟩, ⟨0x2C64, 0x2C64, 1, -10727⟩, ⟨0x2C67, 0x2C6B, 2, 1⟩,
  ⟨0x2C6D, 0x2C6D, 1, -10780⟩, ⟨0x2C6E, 0x2C6E, 1, -10749⟩, ⟨0x2C6F, 0x2C6F, 1, -10783⟩,
  ⟨0x2C70, 0x2C70, 1, -10782⟩, ⟨0x2C72, 0x2C72, 1, 1⟩, ⟨0x2C75, 0x2C75, 1, 1⟩,
  ⟨0x2C7E, 0x2C7F, 1, -10815⟩, ⟨0x2C80, 0x2CE2, 2, 1⟩, ⟨0x2CEB, 0x2CED, 2, 1⟩,
  ⟨0x2CF2, 0x2CF2, 1, 1⟩, ⟨0xA640, 0xA66C, 2, 1⟩, ⟨0xA680, 0xA696, 2, 1⟩, ⟨0xA722, 0xA72E, 2, 1⟩,
  ⟨0xA732, 0xA76E, 2, 1⟩, ⟨0xA779, 0xA77B, 2, 1⟩, ⟨0xA77D, 0xA77D, 1, -35332⟩,
  ⟨0xA77E, 0xA786, 2, 1⟩, ⟨0xA78B, 0xA78B, 1, 1⟩, ⟨0xA78D, 0xA78D, 1, -42280⟩,
  ⟨0xA790, 0xA792, 2, 1⟩, ⟨0xA7A0, 0xA7A8, 2, 1⟩, ⟨0xA7AA, 0xA7AA, 1, -42308⟩,
  ⟨0xFF21, 0xFF3A, 1, 32⟩, ⟨0x10400, 0x10427, 1, 40⟩]

/-- The small letters that stand for marked or variant forms, with the forms. -/
def markedLetters : List (Char × List Nat) := [
  ('a', [0xE0, 0xE1, 0xE2, 0xE3, 0xE4, 0xE5, 0x101, 0x103, 0x105, 0x1CE, 0x201, 0x203, 0x227,
  0x1E01, 0x1EA1, 0x1EA3]), ('b', [0x1E03, 0x1E05, 0x1E07]), ('c', [0xE7, 0x107, 0x109, 0x10B,
  0x10D]), ('d', [0x10F, 0x1E0B, 0x1E0D, 0x1E0F, 0x1E11, 0x1E13]), ('e', [0xE8, 0xE9, 0xEA, 0xEB,
  0x113, 0x115, 0x117, 0x119, 0x11B, 0x205, 0x207, 0x229, 0x1E19, 0x1E1B, 0x1EB9, 0x1EBB, 0x1EBD]),
  ('f', [0x1E1F]), ('g', [0x11D, 0x11F, 0x121, 0x123, 0x1E7, 0x1F5, 0x1E21]), ('h', [0x125, 0x21F,
  0x1E23, 0x1E25, 0x1E27, 0x1E29, 0x1E2B, 0x1E96]), ('i', [0xEC, 0xED, 0xEE, 0xEF, 0x129, 0x12B,
  0x12D, 0x12F, 0x130, 0x1D0, 0x209, 0x20B, 0x1E2D, 0x1EC9, 0x1ECB]), ('j', [0x135, 0x1F0]),
  ('k', [0x137, 0x1E9, 0x1E31, 0x1E33, 0x1E35]), ('l', [0x13A, 0x13C, 0x13E, 0x1E37, 0x1E3B,
  0x1E3D]), ('m', [0x1E3F, 0x1E41, 0x1E43]), ('n', [0xF1, 0x144, 0x146, 0x148, 0x1F9, 0x1E45,
  0x1E47, 0x1E49, 0x1E4B]), ('o', [0xF2, 0xF3, 0xF4, 0xF5, 0xF6, 0x14D, 0x14F, 0x151, 0x1A1, 0x1D2,
  0x1EB, 0x20D, 0x20F, 0x22F, 0x1ECD, 0x1ECF]), ('p', [0x1E55, 0x1E57]), ('r', [0x155, 0x157,
  0x159, 0x211, 0x213, 0x1E59, 0x1E5B, 0x1E5F]), ('s', [0x15B, 0x15D, 0x15F, 0x161, 0x17F, 0x219,
  0x1E61, 0x1E63, 0x1E9B]), ('t', [0x163, 0x165, 0x21B, 0x1E6B, 0x1E6D, 0x1E6F, 0x1E71, 0x1E97]),
  ('u', [0xF9, 0xFA, 0xFB, 0xFC, 0x169, 0x16B, 0x16D, 0x16F, 0x171, 0x173, 0x1B0, 0x1D4, 0x215,
  0x217, 0x1E73, 0x1E75, 0x1E77, 0x1EE5, 0x1EE7]), ('v', [0x1E7D, 0x1E7F]), ('w', [0x175, 0x1E81,
  0x1E83, 0x1E85, 0x1E87, 0x1E89, 0x1E98]), ('x', [0x1E8B, 0x1E8D]), ('y', [0xFD, 0xFF, 0x177,
  0x233, 0x1E8F, 0x1E99, 0x1EF3, 0x1EF5, 0x1EF7, 0x1EF9]), ('z', [0x17A, 0x17C, 0x17E, 0x1E91,
  0x1E93, 0x1E95]), ('β', [0x3D0]), ('ε', [0x3F5]), ('θ', [0x3D1]), ('ι', [0x1FBE]),
  ('κ', [0x3F0]), ('μ', [0xB5]), ('π', [0x3D6]), ('ρ', [0x3F1]), ('σ', [0x3C2]), ('φ', [0x3D5])]

/-- The marks that leave nothing behind in a word and do not begin one. -/
def joiningMarks : List Nat := [
  0x300, 0x301, 0x302, 0x303, 0x304, 0x306, 0x307, 0x308, 0x309, 0x30A, 0x30B, 0x30C, 0x30F, 0x311,
  0x31B, 0x323, 0x324, 0x325, 0x326, 0x327, 0x328, 0x32D, 0x32E, 0x330, 0x331]

end ProviderCatalog.Search
