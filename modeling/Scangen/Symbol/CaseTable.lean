/-!
Code points whose lower-case or upper-case form is another single code point. Letters whose other
form is a sequence, such as the sharp s, are not listed.
-/

namespace Scangen

/-- The `count` code points `first`, `first + step`, … go to `image`, `image + step`, …. -/
structure CaseRun where
  first : Nat
  count : Nat
  step : Nat
  image : Nat

def CaseRun.pairs (run : CaseRun) : List (Nat × Nat) :=
  (List.range run.count).map fun i => (run.first + i * run.step, run.image + i * run.step)

def lowerRuns : List CaseRun :=
  [⟨0x41, 26, 1, 0x61⟩, ⟨0xC0, 23, 1, 0xE0⟩, ⟨0xD8, 7, 1, 0xF8⟩, ⟨0x100, 24, 2, 0x101⟩,
   ⟨0x132, 3, 2, 0x133⟩, ⟨0x139, 8, 2, 0x13A⟩, ⟨0x14A, 23, 2, 0x14B⟩, ⟨0x178, 1, 1, 0xFF⟩,
   ⟨0x179, 3, 2, 0x17A⟩, ⟨0x181, 1, 1, 0x253⟩, ⟨0x182, 2, 2, 0x183⟩, ⟨0x186, 1, 1, 0x254⟩,
   ⟨0x187, 1, 1, 0x188⟩, ⟨0x189, 2, 1, 0x256⟩, ⟨0x18B, 1, 1, 0x18C⟩, ⟨0x18E, 1, 1, 0x1DD⟩,
   ⟨0x18F, 1, 1, 0x259⟩, ⟨0x190, 1, 1, 0x25B⟩, ⟨0x191, 1, 1, 0x192⟩, ⟨0x193, 1, 1, 0x260⟩,
   ⟨0x194, 1, 1, 0x263⟩, ⟨0x196, 1, 1, 0x269⟩, ⟨0x197, 1, 1, 0x268⟩, ⟨0x198, 1, 1, 0x199⟩,
   ⟨0x19C, 1, 1, 0x26F⟩, ⟨0x19D, 1, 1, 0x272⟩, ⟨0x19F, 1, 1, 0x275⟩, ⟨0x1A0, 3, 2, 0x1A1⟩,
   ⟨0x1A6, 1, 1, 0x280⟩, ⟨0x1A7, 1, 1, 0x1A8⟩, ⟨0x1A9, 1, 1, 0x283⟩, ⟨0x1AC, 1, 1, 0x1AD⟩,
   ⟨0x1AE, 1, 1, 0x288⟩, ⟨0x1AF, 1, 1, 0x1B0⟩, ⟨0x1B1, 2, 1, 0x28A⟩, ⟨0x1B3, 2, 2, 0x1B4⟩,
   ⟨0x1B7, 1, 1, 0x292⟩, ⟨0x1B8, 1, 1, 0x1B9⟩, ⟨0x1BC, 1, 1, 0x1BD⟩, ⟨0x1C4, 1, 1, 0x1C6⟩,
   ⟨0x1C5, 1, 1, 0x1C6⟩, ⟨0x1C7, 1, 1, 0x1C9⟩, ⟨0x1C8, 1, 1, 0x1C9⟩, ⟨0x1CA, 1, 1, 0x1CC⟩,
   ⟨0x1CB, 9, 2, 0x1CC⟩, ⟨0x1DE, 9, 2, 0x1DF⟩, ⟨0x1F1, 1, 1, 0x1F3⟩, ⟨0x1F2, 2, 2, 0x1F3⟩,
   ⟨0x1F6, 1, 1, 0x195⟩, ⟨0x1F7, 1, 1, 0x1BF⟩, ⟨0x1F8, 20, 2, 0x1F9⟩, ⟨0x220, 1, 1, 0x19E⟩,
   ⟨0x222, 9, 2, 0x223⟩, ⟨0x23A, 1, 1, 0x2C65⟩, ⟨0x23B, 1, 1, 0x23C⟩, ⟨0x23D, 1, 1, 0x19A⟩,
   ⟨0x23E, 1, 1, 0x2C66⟩, ⟨0x241, 1, 1, 0x242⟩, ⟨0x243, 1, 1, 0x180⟩, ⟨0x244, 1, 1, 0x289⟩,
   ⟨0x245, 1, 1, 0x28C⟩, ⟨0x246, 5, 2, 0x247⟩, ⟨0x370, 2, 2, 0x371⟩, ⟨0x376, 1, 1, 0x377⟩,
   ⟨0x37F, 1, 1, 0x3F3⟩, ⟨0x386, 1, 1, 0x3AC⟩, ⟨0x388, 3, 1, 0x3AD⟩, ⟨0x38C, 1, 1, 0x3CC⟩,
   ⟨0x38E, 2, 1, 0x3CD⟩, ⟨0x391, 17, 1, 0x3B1⟩, ⟨0x3A3, 9, 1, 0x3C3⟩, ⟨0x3CF, 1, 1, 0x3D7⟩,
   ⟨0x3D8, 12, 2, 0x3D9⟩, ⟨0x3F4, 1, 1, 0x3B8⟩, ⟨0x3F7, 1, 1, 0x3F8⟩, ⟨0x3F9, 1, 1, 0x3F2⟩,
   ⟨0x3FA, 1, 1, 0x3FB⟩, ⟨0x3FD, 3, 1, 0x37B⟩, ⟨0x400, 16, 1, 0x450⟩, ⟨0x410, 32, 1, 0x430⟩,
   ⟨0x460, 17, 2, 0x461⟩, ⟨0x48A, 27, 2, 0x48B⟩, ⟨0x4C0, 1, 1, 0x4CF⟩, ⟨0x4C1, 7, 2, 0x4C2⟩,
   ⟨0x4D0, 48, 2, 0x4D1⟩, ⟨0x531, 38, 1, 0x561⟩, ⟨0x10A0, 38, 1, 0x2D00⟩, ⟨0x10C7, 1, 1, 0x2D27⟩,
   ⟨0x10CD, 1, 1, 0x2D2D⟩, ⟨0x13A0, 80, 1, 0xAB70⟩, ⟨0x13F0, 6, 1, 0x13F8⟩, ⟨0x1C89, 1, 1, 0x1C8A⟩,
   ⟨0x1C90, 43, 1, 0x10D0⟩, ⟨0x1CBD, 3, 1, 0x10FD⟩, ⟨0x1E00, 75, 2, 0x1E01⟩, ⟨0x1E9E, 1, 1, 0xDF⟩,
   ⟨0x1EA0, 48, 2, 0x1EA1⟩, ⟨0x1F08, 8, 1, 0x1F00⟩, ⟨0x1F18, 6, 1, 0x1F10⟩, ⟨0x1F28, 8, 1, 0x1F20⟩,
   ⟨0x1F38, 8, 1, 0x1F30⟩, ⟨0x1F48, 6, 1, 0x1F40⟩, ⟨0x1F59, 4, 2, 0x1F51⟩, ⟨0x1F68, 8, 1, 0x1F60⟩,
   ⟨0x1F88, 8, 1, 0x1F80⟩, ⟨0x1F98, 8, 1, 0x1F90⟩, ⟨0x1FA8, 8, 1, 0x1FA0⟩, ⟨0x1FB8, 2, 1, 0x1FB0⟩,
   ⟨0x1FBA, 2, 1, 0x1F70⟩, ⟨0x1FBC, 1, 1, 0x1FB3⟩, ⟨0x1FC8, 4, 1, 0x1F72⟩, ⟨0x1FCC, 1, 1, 0x1FC3⟩,
   ⟨0x1FD8, 2, 1, 0x1FD0⟩, ⟨0x1FDA, 2, 1, 0x1F76⟩, ⟨0x1FE8, 2, 1, 0x1FE0⟩, ⟨0x1FEA, 2, 1, 0x1F7A⟩,
   ⟨0x1FEC, 1, 1, 0x1FE5⟩, ⟨0x1FF8, 2, 1, 0x1F78⟩, ⟨0x1FFA, 2, 1, 0x1F7C⟩, ⟨0x1FFC, 1, 1, 0x1FF3⟩,
   ⟨0x2126, 1, 1, 0x3C9⟩, ⟨0x212A, 1, 1, 0x6B⟩, ⟨0x212B, 1, 1, 0xE5⟩, ⟨0x2132, 1, 1, 0x214E⟩,
   ⟨0x2160, 16, 1, 0x2170⟩, ⟨0x2183, 1, 1, 0x2184⟩, ⟨0x24B6, 26, 1, 0x24D0⟩,
   ⟨0x2C00, 48, 1, 0x2C30⟩, ⟨0x2C60, 1, 1, 0x2C61⟩, ⟨0x2C62, 1, 1, 0x26B⟩, ⟨0x2C63, 1, 1, 0x1D7D⟩,
   ⟨0x2C64, 1, 1, 0x27D⟩, ⟨0x2C67, 3, 2, 0x2C68⟩, ⟨0x2C6D, 1, 1, 0x251⟩, ⟨0x2C6E, 1, 1, 0x271⟩,
   ⟨0x2C6F, 1, 1, 0x250⟩, ⟨0x2C70, 1, 1, 0x252⟩, ⟨0x2C72, 1, 1, 0x2C73⟩, ⟨0x2C75, 1, 1, 0x2C76⟩,
   ⟨0x2C7E, 2, 1, 0x23F⟩, ⟨0x2C80, 50, 2, 0x2C81⟩, ⟨0x2CEB, 2, 2, 0x2CEC⟩, ⟨0x2CF2, 1, 1, 0x2CF3⟩,
   ⟨0xA640, 23, 2, 0xA641⟩, ⟨0xA680, 14, 2, 0xA681⟩, ⟨0xA722, 7, 2, 0xA723⟩,
   ⟨0xA732, 31, 2, 0xA733⟩, ⟨0xA779, 2, 2, 0xA77A⟩, ⟨0xA77D, 1, 1, 0x1D79⟩, ⟨0xA77E, 5, 2, 0xA77F⟩,
   ⟨0xA78B, 1, 1, 0xA78C⟩, ⟨0xA78D, 1, 1, 0x265⟩, ⟨0xA790, 2, 2, 0xA791⟩, ⟨0xA796, 10, 2, 0xA797⟩,
   ⟨0xA7AA, 1, 1, 0x266⟩, ⟨0xA7AB, 1, 1, 0x25C⟩, ⟨0xA7AC, 1, 1, 0x261⟩, ⟨0xA7AD, 1, 1, 0x26C⟩,
   ⟨0xA7AE, 1, 1, 0x26A⟩, ⟨0xA7B0, 1, 1, 0x29E⟩, ⟨0xA7B1, 1, 1, 0x287⟩, ⟨0xA7B2, 1, 1, 0x29D⟩,
   ⟨0xA7B3, 1, 1, 0xAB53⟩, ⟨0xA7B4, 8, 2, 0xA7B5⟩, ⟨0xA7C4, 1, 1, 0xA794⟩, ⟨0xA7C5, 1, 1, 0x282⟩,
   ⟨0xA7C6, 1, 1, 0x1D8E⟩, ⟨0xA7C7, 2, 2, 0xA7C8⟩, ⟨0xA7CB, 1, 1, 0x264⟩, ⟨0xA7CC, 8, 2, 0xA7CD⟩,
   ⟨0xA7DC, 1, 1, 0x19B⟩, ⟨0xA7F5, 1, 1, 0xA7F6⟩, ⟨0xFF21, 26, 1, 0xFF41⟩,
   ⟨0x10400, 40, 1, 0x10428⟩, ⟨0x104B0, 36, 1, 0x104D8⟩, ⟨0x10570, 19, 2, 0x10597⟩,
   ⟨0x10571, 5, 2, 0x10598⟩, ⟨0x1057D, 7, 2, 0x105A4⟩, ⟨0x1058D, 3, 2, 0x105B4⟩,
   ⟨0x10595, 1, 1, 0x105BC⟩, ⟨0x10C80, 51, 1, 0x10CC0⟩, ⟨0x10D50, 22, 1, 0x10D70⟩,
   ⟨0x118A0, 32, 1, 0x118C0⟩, ⟨0x16E40, 32, 1, 0x16E60⟩, ⟨0x16EA0, 25, 1, 0x16EBB⟩,
   ⟨0x1E900, 34, 1, 0x1E922⟩]

def upperRuns : List CaseRun :=
  [⟨0x61, 26, 1, 0x41⟩, ⟨0xB5, 1, 1, 0x39C⟩, ⟨0xE0, 23, 1, 0xC0⟩, ⟨0xF8, 7, 1, 0xD8⟩,
   ⟨0xFF, 1, 1, 0x178⟩, ⟨0x101, 24, 2, 0x100⟩, ⟨0x131, 1, 1, 0x49⟩, ⟨0x133, 3, 2, 0x132⟩,
   ⟨0x13A, 8, 2, 0x139⟩, ⟨0x14B, 23, 2, 0x14A⟩, ⟨0x17A, 3, 2, 0x179⟩, ⟨0x17F, 1, 1, 0x53⟩,
   ⟨0x180, 1, 1, 0x243⟩, ⟨0x183, 2, 2, 0x182⟩, ⟨0x188, 1, 1, 0x187⟩, ⟨0x18C, 1, 1, 0x18B⟩,
   ⟨0x192, 1, 1, 0x191⟩, ⟨0x195, 1, 1, 0x1F6⟩, ⟨0x199, 1, 1, 0x198⟩, ⟨0x19A, 1, 1, 0x23D⟩,
   ⟨0x19B, 1, 1, 0xA7DC⟩, ⟨0x19E, 1, 1, 0x220⟩, ⟨0x1A1, 3, 2, 0x1A0⟩, ⟨0x1A8, 1, 1, 0x1A7⟩,
   ⟨0x1AD, 1, 1, 0x1AC⟩, ⟨0x1B0, 1, 1, 0x1AF⟩, ⟨0x1B4, 2, 2, 0x1B3⟩, ⟨0x1B9, 1, 1, 0x1B8⟩,
   ⟨0x1BD, 1, 1, 0x1BC⟩, ⟨0x1BF, 1, 1, 0x1F7⟩, ⟨0x1C5, 1, 1, 0x1C4⟩, ⟨0x1C6, 1, 1, 0x1C4⟩,
   ⟨0x1C8, 1, 1, 0x1C7⟩, ⟨0x1C9, 1, 1, 0x1C7⟩, ⟨0x1CB, 1, 1, 0x1CA⟩, ⟨0x1CC, 1, 1, 0x1CA⟩,
   ⟨0x1CE, 8, 2, 0x1CD⟩, ⟨0x1DD, 1, 1, 0x18E⟩, ⟨0x1DF, 9, 2, 0x1DE⟩, ⟨0x1F2, 1, 1, 0x1F1⟩,
   ⟨0x1F3, 1, 1, 0x1F1⟩, ⟨0x1F5, 1, 1, 0x1F4⟩, ⟨0x1F9, 20, 2, 0x1F8⟩, ⟨0x223, 9, 2, 0x222⟩,
   ⟨0x23C, 1, 1, 0x23B⟩, ⟨0x23F, 2, 1, 0x2C7E⟩, ⟨0x242, 1, 1, 0x241⟩, ⟨0x247, 5, 2, 0x246⟩,
   ⟨0x250, 1, 1, 0x2C6F⟩, ⟨0x251, 1, 1, 0x2C6D⟩, ⟨0x252, 1, 1, 0x2C70⟩, ⟨0x253, 1, 1, 0x181⟩,
   ⟨0x254, 1, 1, 0x186⟩, ⟨0x256, 2, 1, 0x189⟩, ⟨0x259, 1, 1, 0x18F⟩, ⟨0x25B, 1, 1, 0x190⟩,
   ⟨0x25C, 1, 1, 0xA7AB⟩, ⟨0x260, 1, 1, 0x193⟩, ⟨0x261, 1, 1, 0xA7AC⟩, ⟨0x263, 1, 1, 0x194⟩,
   ⟨0x264, 1, 1, 0xA7CB⟩, ⟨0x265, 1, 1, 0xA78D⟩, ⟨0x266, 1, 1, 0xA7AA⟩, ⟨0x268, 1, 1, 0x197⟩,
   ⟨0x269, 1, 1, 0x196⟩, ⟨0x26A, 1, 1, 0xA7AE⟩, ⟨0x26B, 1, 1, 0x2C62⟩, ⟨0x26C, 1, 1, 0xA7AD⟩,
   ⟨0x26F, 1, 1, 0x19C⟩, ⟨0x271, 1, 1, 0x2C6E⟩, ⟨0x272, 1, 1, 0x19D⟩, ⟨0x275, 1, 1, 0x19F⟩,
   ⟨0x27D, 1, 1, 0x2C64⟩, ⟨0x280, 1, 1, 0x1A6⟩, ⟨0x282, 1, 1, 0xA7C5⟩, ⟨0x283, 1, 1, 0x1A9⟩,
   ⟨0x287, 1, 1, 0xA7B1⟩, ⟨0x288, 1, 1, 0x1AE⟩, ⟨0x289, 1, 1, 0x244⟩, ⟨0x28A, 2, 1, 0x1B1⟩,
   ⟨0x28C, 1, 1, 0x245⟩, ⟨0x292, 1, 1, 0x1B7⟩, ⟨0x29D, 1, 1, 0xA7B2⟩, ⟨0x29E, 1, 1, 0xA7B0⟩,
   ⟨0x345, 1, 1, 0x399⟩, ⟨0x371, 2, 2, 0x370⟩, ⟨0x377, 1, 1, 0x376⟩, ⟨0x37B, 3, 1, 0x3FD⟩,
   ⟨0x3AC, 1, 1, 0x386⟩, ⟨0x3AD, 3, 1, 0x388⟩, ⟨0x3B1, 17, 1, 0x391⟩, ⟨0x3C2, 1, 1, 0x3A3⟩,
   ⟨0x3C3, 9, 1, 0x3A3⟩, ⟨0x3CC, 1, 1, 0x38C⟩, ⟨0x3CD, 2, 1, 0x38E⟩, ⟨0x3D0, 1, 1, 0x392⟩,
   ⟨0x3D1, 1, 1, 0x398⟩, ⟨0x3D5, 1, 1, 0x3A6⟩, ⟨0x3D6, 1, 1, 0x3A0⟩, ⟨0x3D7, 1, 1, 0x3CF⟩,
   ⟨0x3D9, 12, 2, 0x3D8⟩, ⟨0x3F0, 1, 1, 0x39A⟩, ⟨0x3F1, 1, 1, 0x3A1⟩, ⟨0x3F2, 1, 1, 0x3F9⟩,
   ⟨0x3F3, 1, 1, 0x37F⟩, ⟨0x3F5, 1, 1, 0x395⟩, ⟨0x3F8, 1, 1, 0x3F7⟩, ⟨0x3FB, 1, 1, 0x3FA⟩,
   ⟨0x430, 32, 1, 0x410⟩, ⟨0x450, 16, 1, 0x400⟩, ⟨0x461, 17, 2, 0x460⟩, ⟨0x48B, 27, 2, 0x48A⟩,
   ⟨0x4C2, 7, 2, 0x4C1⟩, ⟨0x4CF, 1, 1, 0x4C0⟩, ⟨0x4D1, 48, 2, 0x4D0⟩, ⟨0x561, 38, 1, 0x531⟩,
   ⟨0x10D0, 43, 1, 0x1C90⟩, ⟨0x10FD, 3, 1, 0x1CBD⟩, ⟨0x13F8, 6, 1, 0x13F0⟩, ⟨0x1C80, 1, 1, 0x412⟩,
   ⟨0x1C81, 1, 1, 0x414⟩, ⟨0x1C82, 1, 1, 0x41E⟩, ⟨0x1C83, 2, 1, 0x421⟩, ⟨0x1C85, 1, 1, 0x422⟩,
   ⟨0x1C86, 1, 1, 0x42A⟩, ⟨0x1C87, 1, 1, 0x462⟩, ⟨0x1C88, 1, 1, 0xA64A⟩, ⟨0x1C8A, 1, 1, 0x1C89⟩,
   ⟨0x1D79, 1, 1, 0xA77D⟩, ⟨0x1D7D, 1, 1, 0x2C63⟩, ⟨0x1D8E, 1, 1, 0xA7C6⟩, ⟨0x1E01, 75, 2, 0x1E00⟩,
   ⟨0x1E9B, 1, 1, 0x1E60⟩, ⟨0x1EA1, 48, 2, 0x1EA0⟩, ⟨0x1F00, 8, 1, 0x1F08⟩, ⟨0x1F10, 6, 1, 0x1F18⟩,
   ⟨0x1F20, 8, 1, 0x1F28⟩, ⟨0x1F30, 8, 1, 0x1F38⟩, ⟨0x1F40, 6, 1, 0x1F48⟩, ⟨0x1F51, 4, 2, 0x1F59⟩,
   ⟨0x1F60, 8, 1, 0x1F68⟩, ⟨0x1F70, 2, 1, 0x1FBA⟩, ⟨0x1F72, 4, 1, 0x1FC8⟩, ⟨0x1F76, 2, 1, 0x1FDA⟩,
   ⟨0x1F78, 2, 1, 0x1FF8⟩, ⟨0x1F7A, 2, 1, 0x1FEA⟩, ⟨0x1F7C, 2, 1, 0x1FFA⟩, ⟨0x1FB0, 2, 1, 0x1FB8⟩,
   ⟨0x1FBE, 1, 1, 0x399⟩, ⟨0x1FD0, 2, 1, 0x1FD8⟩, ⟨0x1FE0, 2, 1, 0x1FE8⟩, ⟨0x1FE5, 1, 1, 0x1FEC⟩,
   ⟨0x214E, 1, 1, 0x2132⟩, ⟨0x2170, 16, 1, 0x2160⟩, ⟨0x2184, 1, 1, 0x2183⟩, ⟨0x24D0, 26, 1, 0x24B6⟩,
   ⟨0x2C30, 48, 1, 0x2C00⟩, ⟨0x2C61, 1, 1, 0x2C60⟩, ⟨0x2C65, 1, 1, 0x23A⟩, ⟨0x2C66, 1, 1, 0x23E⟩,
   ⟨0x2C68, 3, 2, 0x2C67⟩, ⟨0x2C73, 1, 1, 0x2C72⟩, ⟨0x2C76, 1, 1, 0x2C75⟩, ⟨0x2C81, 50, 2, 0x2C80⟩,
   ⟨0x2CEC, 2, 2, 0x2CEB⟩, ⟨0x2CF3, 1, 1, 0x2CF2⟩, ⟨0x2D00, 38, 1, 0x10A0⟩, ⟨0x2D27, 1, 1, 0x10C7⟩,
   ⟨0x2D2D, 1, 1, 0x10CD⟩, ⟨0xA641, 23, 2, 0xA640⟩, ⟨0xA681, 14, 2, 0xA680⟩, ⟨0xA723, 7, 2, 0xA722⟩,
   ⟨0xA733, 31, 2, 0xA732⟩, ⟨0xA77A, 2, 2, 0xA779⟩, ⟨0xA77F, 5, 2, 0xA77E⟩, ⟨0xA78C, 1, 1, 0xA78B⟩,
   ⟨0xA791, 2, 2, 0xA790⟩, ⟨0xA794, 1, 1, 0xA7C4⟩, ⟨0xA797, 10, 2, 0xA796⟩, ⟨0xA7B5, 8, 2, 0xA7B4⟩,
   ⟨0xA7C8, 2, 2, 0xA7C7⟩, ⟨0xA7CD, 8, 2, 0xA7CC⟩, ⟨0xA7F6, 1, 1, 0xA7F5⟩, ⟨0xAB53, 1, 1, 0xA7B3⟩,
   ⟨0xAB70, 80, 1, 0x13A0⟩, ⟨0xFF41, 26, 1, 0xFF21⟩, ⟨0x10428, 40, 1, 0x10400⟩,
   ⟨0x104D8, 36, 1, 0x104B0⟩, ⟨0x10597, 19, 2, 0x10570⟩, ⟨0x10598, 5, 2, 0x10571⟩,
   ⟨0x105A4, 7, 2, 0x1057D⟩, ⟨0x105B4, 3, 2, 0x1058D⟩, ⟨0x105BC, 1, 1, 0x10595⟩,
   ⟨0x10CC0, 51, 1, 0x10C80⟩, ⟨0x10D70, 22, 1, 0x10D50⟩, ⟨0x118C0, 32, 1, 0x118A0⟩,
   ⟨0x16E60, 32, 1, 0x16E40⟩, ⟨0x16EBB, 25, 1, 0x16EA0⟩, ⟨0x1E922, 34, 1, 0x1E900⟩]

/-- Every code point with a different lower-case form, and that form. -/
def lowerPairs : List (Nat × Nat) := lowerRuns.flatMap CaseRun.pairs

/-- Every code point with a different upper-case form, and that form. -/
def upperPairs : List (Nat × Nat) := upperRuns.flatMap CaseRun.pairs

end Scangen
