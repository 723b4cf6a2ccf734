import Mathlib.Data.Nat.Notation
/-!
# Unicode: the composition table

`table[]` of `unicode.c`: a precomposed character and the two it stands
for, the first in the upper half of the pattern. The first entry is a
dummy, so that the search in `UCS2precompose` may count from one.
-/

namespace NetatalkClient

set_option maxRecDepth 10000 in
/-- The pairs (`precomposed`, `pattern`) in the order of the source. -/
def table : List (ℕ × ℕ) := [
  (0x0000, 0x0000), (0x00C0, 0x410300), (0x00C1, 0x410301), (0x00C2, 0x410302), (0x00C3, 0x410303),
  (0x0100, 0x410304), (0x0102, 0x410306), (0x0226, 0x410307), (0x00C4, 0x410308),
  (0x1EA2, 0x410309), (0x00C5, 0x41030A), (0x01CD, 0x41030C), (0x0200, 0x41030F),
  (0x0202, 0x410311), (0x1EA0, 0x410323), (0x1E00, 0x410325), (0x0104, 0x410328),
  (0x1E02, 0x420307), (0x1E04, 0x420323), (0x1E06, 0x420331), (0x0106, 0x430301),
  (0x0108, 0x430302), (0x010A, 0x430307), (0x010C, 0x43030C), (0x00C7, 0x430327),
  (0x1E0A, 0x440307), (0x010E, 0x44030C), (0x1E0C, 0x440323), (0x1E10, 0x440327),
  (0x1E12, 0x44032D), (0x1E0E, 0x440331), (0x00C8, 0x450300), (0x00C9, 0x450301),
  (0x00CA, 0x450302), (0x1EBC, 0x450303), (0x0112, 0x450304), (0x0114, 0x450306),
  (0x0116, 0x450307), (0x00CB, 0x450308), (0x1EBA, 0x450309), (0x011A, 0x45030C),
  (0x0204, 0x45030F), (0x0206, 0x450311), (0x1EB8, 0x450323), (0x0228, 0x450327),
  (0x0118, 0x450328), (0x1E18, 0x45032D), (0x1E1A, 0x450330), (0x1E1E, 0x460307),
  (0x01F4, 0x470301), (0x011C, 0x470302), (0x1E20, 0x470304), (0x011E, 0x470306),
  (0x0120, 0x470307), (0x01E6, 0x47030C), (0x0122, 0x470327), (0x0124, 0x480302),
  (0x1E22, 0x480307), (0x1E26, 0x480308), (0x021E, 0x48030C), (0x1E24, 0x480323),
  (0x1E28, 0x480327), (0x1E2A, 0x48032E), (0x00CC, 0x490300), (0x00CD, 0x490301),
  (0x00CE, 0x490302), (0x0128, 0x490303), (0x012A, 0x490304), (0x012C, 0x490306),
  (0x0130, 0x490307), (0x00CF, 0x490308), (0x1EC8, 0x490309), (0x01CF, 0x49030C),
  (0x0208, 0x49030F), (0x020A, 0x490311), (0x1ECA, 0x490323), (0x012E, 0x490328),
  (0x1E2C, 0x490330), (0x0134, 0x4A0302), (0x1E30, 0x4B0301), (0x01E8, 0x4B030C),
  (0x1E32, 0x4B0323), (0x0136, 0x4B0327), (0x1E34, 0x4B0331), (0x0139, 0x4C0301),
  (0x013D, 0x4C030C), (0x1E36, 0x4C0323), (0x013B, 0x4C0327), (0x1E3C, 0x4C032D),
  (0x1E3A, 0x4C0331), (0x1E3E, 0x4D0301), (0x1E40, 0x4D0307), (0x1E42, 0x4D0323),
  (0x01F8, 0x4E0300), (0x0143, 0x4E0301), (0x00D1, 0x4E0303), (0x1E44, 0x4E0307),
  (0x0147, 0x4E030C), (0x1E46, 0x4E0323), (0x0145, 0x4E0327), (0x1E4A, 0x4E032D),
  (0x1E48, 0x4E0331), (0x00D2, 0x4F0300), (0x00D3, 0x4F0301), (0x00D4, 0x4F0302),
  (0x00D5, 0x4F0303), (0x014C, 0x4F0304), (0x014E, 0x4F0306), (0x022E, 0x4F0307),
  (0x00D6, 0x4F0308), (0x1ECE, 0x4F0309), (0x0150, 0x4F030B), (0x01D1, 0x4F030C),
  (0x020C, 0x4F030F), (0x020E, 0x4F0311), (0x01A0, 0x4F031B), (0x1ECC, 0x4F0323),
  (0x01EA, 0x4F0328), (0x1E54, 0x500301), (0x1E56, 0x500307), (0x0154, 0x520301),
  (0x1E58, 0x520307), (0x0158, 0x52030C), (0x0210, 0x52030F), (0x0212, 0x520311),
  (0x1E5A, 0x520323), (0x0156, 0x520327), (0x1E5E, 0x520331), (0x015A, 0x530301),
  (0x015C, 0x530302), (0x1E60, 0x530307), (0x0160, 0x53030C), (0x1E62, 0x530323),
  (0x0218, 0x530326), (0x015E, 0x530327), (0x1E6A, 0x540307), (0x0164, 0x54030C),
  (0x1E6C, 0x540323), (0x021A, 0x540326), (0x0162, 0x540327), (0x1E70, 0x54032D),
  (0x1E6E, 0x540331), (0x00D9, 0x550300), (0x00DA, 0x550301), (0x00DB, 0x550302),
  (0x0168, 0x550303), (0x016A, 0x550304), (0x016C, 0x550306), (0x00DC, 0x550308),
  (0x1EE6, 0x550309), (0x016E, 0x55030A), (0x0170, 0x55030B), (0x01D3, 0x55030C),
  (0x0214, 0x55030F), (0x0216, 0x550311), (0x01AF, 0x55031B), (0x1EE4, 0x550323),
  (0x1E72, 0x550324), (0x0172, 0x550328), (0x1E76, 0x55032D), (0x1E74, 0x550330),
  (0x1E7C, 0x560303), (0x1E7E, 0x560323), (0x1E80, 0x570300), (0x1E82, 0x570301),
  (0x0174, 0x570302), (0x1E86, 0x570307), (0x1E84, 0x570308), (0x1E88, 0x570323),
  (0x1E8A, 0x580307), (0x1E8C, 0x580308), (0x1EF2, 0x590300), (0x00DD, 0x590301),
  (0x0176, 0x590302), (0x1EF8, 0x590303), (0x0232, 0x590304), (0x1E8E, 0x590307),
  (0x0178, 0x590308), (0x1EF6, 0x590309), (0x1EF4, 0x590323), (0x0179, 0x5A0301),
  (0x1E90, 0x5A0302), (0x017B, 0x5A0307), (0x017D, 0x5A030C), (0x1E92, 0x5A0323),
  (0x1E94, 0x5A0331), (0x00E0, 0x610300), (0x00E1, 0x610301), (0x00E2, 0x610302),
  (0x00E3, 0x610303), (0x0101, 0x610304), (0x0103, 0x610306), (0x0227, 0x610307),
  (0x00E4, 0x610308), (0x1EA3, 0x610309), (0x00E5, 0x61030A), (0x01CE, 0x61030C),
  (0x0201, 0x61030F), (0x0203, 0x610311), (0x1EA1, 0x610323), (0x1E01, 0x610325),
  (0x0105, 0x610328), (0x1E03, 0x620307), (0x1E05, 0x620323), (0x1E07, 0x620331),
  (0x0107, 0x630301), (0x0109, 0x630302), (0x010B, 0x630307), (0x010D, 0x63030C),
  (0x00E7, 0x630327), (0x1E0B, 0x640307), (0x010F, 0x64030C), (0x1E0D, 0x640323),
  (0x1E11, 0x640327), (0x1E13, 0x64032D), (0x1E0F, 0x640331), (0x00E8, 0x650300),
  (0x00E9, 0x650301), (0x00EA, 0x650302), (0x1EBD, 0x650303), (0x0113, 0x650304),
  (0x0115, 0x650306), (0x0117, 0x650307), (0x00EB, 0x650308), (0x1EBB, 0x650309),
  (0x011B, 0x65030C), (0x0205, 0x65030F), (0x0207, 0x650311), (0x1EB9, 0x650323),
  (0x0229, 0x650327), (0x0119, 0x650328), (0x1E19, 0x65032D), (0x1E1B, 0x650330),
  (0x1E1F, 0x660307), (0x01F5, 0x670301), (0x011D, 0x670302), (0x1E21, 0x670304),
  (0x011F, 0x670306), (0x0121, 0x670307), (0x01E7, 0x67030C), (0x0123, 0x670327),
  (0x0125, 0x680302), (0x1E23, 0x680307), (0x1E27, 0x680308), (0x021F, 0x68030C),
  (0x1E25, 0x680323), (0x1E29, 0x680327), (0x1E2B, 0x68032E), (0x1E96, 0x680331),
  (0x00EC, 0x690300), (0x00ED, 0x690301), (0x00EE, 0x690302), (0x0129, 0x690303),
  (0x012B, 0x690304), (0x012D, 0x690306), (0x00EF, 0x690308), (0x1EC9, 0x690309),
  (0x01D0, 0x69030C), (0x0209, 0x69030F), (0x020B, 0x690311), (0x1ECB, 0x690323),
  (0x012F, 0x690328), (0x1E2D, 0x690330), (0x0135, 0x6A0302), (0x01F0, 0x6A030C),
  (0x1E31, 0x6B0301), (0x01E9, 0x6B030C), (0x1E33, 0x6B0323), (0x0137, 0x6B0327),
  (0x1E35, 0x6B0331), (0x013A, 0x6C0301), (0x013E, 0x6C030C), (0x1E37, 0x6C0323),
  (0x013C, 0x6C0327), (0x1E3D, 0x6C032D), (0x1E3B, 0x6C0331), (0x1E3F, 0x6D0301),
  (0x1E41, 0x6D0307), (0x1E43, 0x6D0323), (0x01F9, 0x6E0300), (0x0144, 0x6E0301),
  (0x00F1, 0x6E0303), (0x1E45, 0x6E0307), (0x0148, 0x6E030C), (0x1E47, 0x6E0323),
  (0x0146, 0x6E0327), (0x1E4B, 0x6E032D), (0x1E49, 0x6E0331), (0x00F2, 0x6F0300),
  (0x00F3, 0x6F0301), (0x00F4, 0x6F0302), (0x00F5, 0x6F0303), (0x014D, 0x6F0304),
  (0x014F, 0x6F0306), (0x022F, 0x6F0307), (0x00F6, 0x6F0308), (0x1ECF, 0x6F0309),
  (0x0151, 0x6F030B), (0x01D2, 0x6F030C), (0x020D, 0x6F030F), (0x020F, 0x6F0311),
  (0x01A1, 0x6F031B), (0x1ECD, 0x6F0323), (0x01EB, 0x6F0328), (0x1E55, 0x700301),
  (0x1E57, 0x700307), (0x0155, 0x720301), (0x1E59, 0x720307), (0x0159, 0x72030C),
  (0x0211, 0x72030F), (0x0213, 0x720311), (0x1E5B, 0x720323), (0x0157, 0x720327),
  (0x1E5F, 0x720331), (0x015B, 0x730301), (0x015D, 0x730302), (0x1E61, 0x730307),
  (0x0161, 0x73030C), (0x1E63, 0x730323), (0x0219, 0x730326), (0x015F, 0x730327),
  (0x1E6B, 0x740307), (0x1E97, 0x740308), (0x0165, 0x74030C), (0x1E6D, 0x740323),
  (0x021B, 0x740326), (0x0163, 0x740327), (0x1E71, 0x74032D), (0x1E6F, 0x740331),
  (0x00F9, 0x750300), (0x00FA, 0x750301), (0x00FB, 0x750302), (0x0169, 0x750303),
  (0x016B, 0x750304), (0x016D, 0x750306), (0x00FC, 0x750308), (0x1EE7, 0x750309),
  (0x016F, 0x75030A), (0x0171, 0x75030B), (0x01D4, 0x75030C), (0x0215, 0x75030F),
  (0x0217, 0x750311), (0x01B0, 0x75031B), (0x1EE5, 0x750323), (0x1E73, 0x750324),
  (0x0173, 0x750328), (0x1E77, 0x75032D), (0x1E75, 0x750330), (0x1E7D, 0x760303),
  (0x1E7F, 0x760323), (0x1E81, 0x770300), (0x1E83, 0x770301), (0x0175, 0x770302),
  (0x1E87, 0x770307), (0x1E85, 0x770308), (0x1E98, 0x77030A), (0x1E89, 0x770323),
  (0x1E8B, 0x780307), (0x1E8D, 0x780308), (0x1EF3, 0x790300), (0x00FD, 0x790301),
  (0x0177, 0x790302), (0x1EF9, 0x790303), (0x0233, 0x790304), (0x1E8F, 0x790307),
  (0x00FF, 0x790308), (0x1EF7, 0x790309), (0x1E99, 0x79030A), (0x1EF5, 0x790323),
  (0x017A, 0x7A0301), (0x1E91, 0x7A0302), (0x017C, 0x7A0307), (0x017E, 0x7A030C),
  (0x1E93, 0x7A0323), (0x1E95, 0x7A0331), (0x1FED, 0xA80300), (0x0385, 0xA80301),
  (0x1FC1, 0xA80342), (0x1EA6, 0xC20300), (0x1EA4, 0xC20301), (0x1EAA, 0xC20303),
  (0x1EA8, 0xC20309), (0x01DE, 0xC40304), (0x01FA, 0xC50301), (0x01FC, 0xC60301),
  (0x01E2, 0xC60304), (0x1E08, 0xC70301), (0x1EC0, 0xCA0300), (0x1EBE, 0xCA0301),
  (0x1EC4, 0xCA0303), (0x1EC2, 0xCA0309), (0x1E2E, 0xCF0301), (0x1ED2, 0xD40300),
  (0x1ED0, 0xD40301), (0x1ED6, 0xD40303), (0x1ED4, 0xD40309), (0x1E4C, 0xD50301),
  (0x022C, 0xD50304), (0x1E4E, 0xD50308), (0x022A, 0xD60304), (0x01FE, 0xD80301),
  (0x01DB, 0xDC0300), (0x01D7, 0xDC0301), (0x01D5, 0xDC0304), (0x01D9, 0xDC030C),
  (0x1EA7, 0xE20300), (0x1EA5, 0xE20301), (0x1EAB, 0xE20303), (0x1EA9, 0xE20309),
  (0x01DF, 0xE40304), (0x01FB, 0xE50301), (0x01FD, 0xE60301), (0x01E3, 0xE60304),
  (0x1E09, 0xE70301), (0x1EC1, 0xEA0300), (0x1EBF, 0xEA0301), (0x1EC5, 0xEA0303),
  (0x1EC3, 0xEA0309), (0x1E2F, 0xEF0301), (0x1ED3, 0xF40300), (0x1ED1, 0xF40301),
  (0x1ED7, 0xF40303), (0x1ED5, 0xF40309), (0x1E4D, 0xF50301), (0x022D, 0xF50304),
  (0x1E4F, 0xF50308), (0x022B, 0xF60304), (0x01FF, 0xF80301), (0x01DC, 0xFC0300),
  (0x01D8, 0xFC0301), (0x01D6, 0xFC0304), (0x01DA, 0xFC030C), (0x1EB0, 0x01020300),
  (0x1EAE, 0x01020301), (0x1EB4, 0x01020303), (0x1EB2, 0x01020309), (0x1EB1, 0x01030300),
  (0x1EAF, 0x01030301), (0x1EB5, 0x01030303), (0x1EB3, 0x01030309), (0x1E14, 0x01120300),
  (0x1E16, 0x01120301), (0x1E15, 0x01130300), (0x1E17, 0x01130301), (0x1E50, 0x014C0300),
  (0x1E52, 0x014C0301), (0x1E51, 0x014D0300), (0x1E53, 0x014D0301), (0x1E64, 0x015A0307),
  (0x1E65, 0x015B0307), (0x1E66, 0x01600307), (0x1E67, 0x01610307), (0x1E78, 0x01680301),
  (0x1E79, 0x01690301), (0x1E7A, 0x016A0308), (0x1E7B, 0x016B0308), (0x1E9B, 0x017F0307),
  (0x1EDC, 0x01A00300), (0x1EDA, 0x01A00301), (0x1EE0, 0x01A00303), (0x1EDE, 0x01A00309),
  (0x1EE2, 0x01A00323), (0x1EDD, 0x01A10300), (0x1EDB, 0x01A10301), (0x1EE1, 0x01A10303),
  (0x1EDF, 0x01A10309), (0x1EE3, 0x01A10323), (0x1EEA, 0x01AF0300), (0x1EE8, 0x01AF0301),
  (0x1EEE, 0x01AF0303), (0x1EEC, 0x01AF0309), (0x1EF0, 0x01AF0323), (0x1EEB, 0x01B00300),
  (0x1EE9, 0x01B00301), (0x1EEF, 0x01B00303), (0x1EED, 0x01B00309), (0x1EF1, 0x01B00323),
  (0x01EE, 0x01B7030C), (0x01EC, 0x01EA0304), (0x01ED, 0x01EB0304), (0x01E0, 0x02260304),
  (0x01E1, 0x02270304), (0x1E1C, 0x02280306), (0x1E1D, 0x02290306), (0x0230, 0x022E0304),
  (0x0231, 0x022F0304), (0x01EF, 0x0292030C), (0x0344, 0x03080301), (0x1FBA, 0x03910300),
  (0x0386, 0x03910301), (0x1FB9, 0x03910304), (0x1FB8, 0x03910306), (0x1F08, 0x03910313),
  (0x1F09, 0x03910314), (0x1FBC, 0x03910345), (0x1FC8, 0x03950300), (0x0388, 0x03950301),
  (0x1F18, 0x03950313), (0x1F19, 0x03950314), (0x1FCA, 0x03970300), (0x0389, 0x03970301),
  (0x1F28, 0x03970313), (0x1F29, 0x03970314), (0x1FCC, 0x03970345), (0x1FDA, 0x03990300),
  (0x038A, 0x03990301), (0x1FD9, 0x03990304), (0x1FD8, 0x03990306), (0x03AA, 0x03990308),
  (0x1F38, 0x03990313), (0x1F39, 0x03990314), (0x1FF8, 0x039F0300), (0x038C, 0x039F0301),
  (0x1F48, 0x039F0313), (0x1F49, 0x039F0314), (0x1FEC, 0x03A10314), (0x1FEA, 0x03A50300),
  (0x038E, 0x03A50301), (0x1FE9, 0x03A50304), (0x1FE8, 0x03A50306), (0x03AB, 0x03A50308),
  (0x1F59, 0x03A50314), (0x1FFA, 0x03A90300), (0x038F, 0x03A90301), (0x1F68, 0x03A90313),
  (0x1F69, 0x03A90314), (0x1FFC, 0x03A90345), (0x1FB4, 0x03AC0345), (0x1FC4, 0x03AE0345),
  (0x1F70, 0x03B10300), (0x03AC, 0x03B10301), (0x1FB1, 0x03B10304), (0x1FB0, 0x03B10306),
  (0x1F00, 0x03B10313), (0x1F01, 0x03B10314), (0x1FB6, 0x03B10342), (0x1FB3, 0x03B10345),
  (0x1F72, 0x03B50300), (0x03AD, 0x03B50301), (0x1F10, 0x03B50313), (0x1F11, 0x03B50314),
  (0x1F74, 0x03B70300), (0x03AE, 0x03B70301), (0x1F20, 0x03B70313), (0x1F21, 0x03B70314),
  (0x1FC6, 0x03B70342), (0x1FC3, 0x03B70345), (0x1F76, 0x03B90300), (0x03AF, 0x03B90301),
  (0x1FD1, 0x03B90304), (0x1FD0, 0x03B90306), (0x03CA, 0x03B90308), (0x1F30, 0x03B90313),
  (0x1F31, 0x03B90314), (0x1FD6, 0x03B90342), (0x1F78, 0x03BF0300), (0x03CC, 0x03BF0301),
  (0x1F40, 0x03BF0313), (0x1F41, 0x03BF0314), (0x1FE4, 0x03C10313), (0x1FE5, 0x03C10314),
  (0x1F7A, 0x03C50300), (0x03CD, 0x03C50301), (0x1FE1, 0x03C50304), (0x1FE0, 0x03C50306),
  (0x03CB, 0x03C50308), (0x1F50, 0x03C50313), (0x1F51, 0x03C50314), (0x1FE6, 0x03C50342),
  (0x1F7C, 0x03C90300), (0x03CE, 0x03C90301), (0x1F60, 0x03C90313), (0x1F61, 0x03C90314),
  (0x1FF6, 0x03C90342), (0x1FF3, 0x03C90345), (0x1FD2, 0x03CA0300), (0x0390, 0x03CA0301),
  (0x1FD7, 0x03CA0342), (0x1FE2, 0x03CB0300), (0x03B0, 0x03CB0301), (0x1FE7, 0x03CB0342),
  (0x1FF4, 0x03CE0345), (0x03D3, 0x03D20301), (0x03D4, 0x03D20308), (0x0407, 0x04060308),
  (0x04D0, 0x04100306), (0x04D2, 0x04100308), (0x0403, 0x04130301), (0x0400, 0x04150300),
  (0x04D6, 0x04150306), (0x0401, 0x04150308), (0x04C1, 0x04160306), (0x04DC, 0x04160308),
  (0x04DE, 0x04170308), (0x040D, 0x04180300), (0x04E2, 0x04180304), (0x0419, 0x04180306),
  (0x04E4, 0x04180308), (0x040C, 0x041A0301), (0x04E6, 0x041E0308), (0x04EE, 0x04230304),
  (0x040E, 0x04230306), (0x04F0, 0x04230308), (0x04F2, 0x0423030B), (0x04F4, 0x04270308),
  (0x04F8, 0x042B0308), (0x04EC, 0x042D0308), (0x04D1, 0x04300306), (0x04D3, 0x04300308),
  (0x0453, 0x04330301), (0x0450, 0x04350300), (0x04D7, 0x04350306), (0x0451, 0x04350308),
  (0x04C2, 0x04360306), (0x04DD, 0x04360308), (0x04DF, 0x04370308), (0x045D, 0x04380300),
  (0x04E3, 0x04380304), (0x0439, 0x04380306), (0x04E5, 0x04380308), (0x045C, 0x043A0301),
  (0x04E7, 0x043E0308), (0x04EF, 0x04430304), (0x045E, 0x04430306), (0x04F1, 0x04430308),
  (0x04F3, 0x0443030B), (0x04F5, 0x04470308), (0x04F9, 0x044B0308), (0x04ED, 0x044D0308),
  (0x0457, 0x04560308), (0x0476, 0x0474030F), (0x0477, 0x0475030F), (0x04DA, 0x04D80308),
  (0x04DB, 0x04D90308), (0x04EA, 0x04E80308), (0x04EB, 0x04E90308), (0xFB2E, 0x05D005B7),
  (0xFB2F, 0x05D005B8), (0xFB30, 0x05D005BC), (0xFB31, 0x05D105BC), (0xFB4C, 0x05D105BF),
  (0xFB32, 0x05D205BC), (0xFB33, 0x05D305BC), (0xFB34, 0x05D405BC), (0xFB4B, 0x05D505B9),
  (0xFB35, 0x05D505BC), (0xFB36, 0x05D605BC), (0xFB38, 0x05D805BC), (0xFB1D, 0x05D905B4),
  (0xFB39, 0x05D905BC), (0xFB3A, 0x05DA05BC), (0xFB3B, 0x05DB05BC), (0xFB4D, 0x05DB05BF),
  (0xFB3C, 0x05DC05BC), (0xFB3E, 0x05DE05BC), (0xFB40, 0x05E005BC), (0xFB41, 0x05E105BC),
  (0xFB43, 0x05E305BC), (0xFB44, 0x05E405BC), (0xFB4E, 0x05E405BF), (0xFB46, 0x05E605BC),
  (0xFB47, 0x05E705BC), (0xFB48, 0x05E805BC), (0xFB49, 0x05E905BC), (0xFB2A, 0x05E905C1),
  (0xFB2B, 0x05E905C2), (0xFB4A, 0x05EA05BC), (0xFB1F, 0x05F205B7), (0x0622, 0x06270653),
  (0x0623, 0x06270654), (0x0625, 0x06270655), (0x0624, 0x06480654), (0x0626, 0x064A0654),
  (0x06C2, 0x06C10654), (0x06D3, 0x06D20654), (0x06C0, 0x06D50654), (0x0958, 0x0915093C),
  (0x0959, 0x0916093C), (0x095A, 0x0917093C), (0x095B, 0x091C093C), (0x095C, 0x0921093C),
  (0x095D, 0x0922093C), (0x0929, 0x0928093C), (0x095E, 0x092B093C), (0x095F, 0x092F093C),
  (0x0931, 0x0930093C), (0x0934, 0x0933093C), (0x09DC, 0x09A109BC), (0x09DD, 0x09A209BC),
  (0x09DF, 0x09AF09BC), (0x09CB, 0x09C709BE), (0x09CC, 0x09C709D7), (0x0A59, 0x0A160A3C),
  (0x0A5A, 0x0A170A3C), (0x0A5B, 0x0A1C0A3C), (0x0A5E, 0x0A2B0A3C), (0x0A33, 0x0A320A3C),
  (0x0A36, 0x0A380A3C), (0x0B5C, 0x0B210B3C), (0x0B5D, 0x0B220B3C), (0x0B4B, 0x0B470B3E),
  (0x0B48, 0x0B470B56), (0x0B4C, 0x0B470B57), (0x0B94, 0x0B920BD7), (0x0BCA, 0x0BC60BBE),
  (0x0BCC, 0x0BC60BD7), (0x0BCB, 0x0BC70BBE), (0x0C48, 0x0C460C56), (0x0CC0, 0x0CBF0CD5),
  (0x0CCA, 0x0CC60CC2), (0x0CC7, 0x0CC60CD5), (0x0CC8, 0x0CC60CD6), (0x0CCB, 0x0CCA0CD5),
  (0x0D4A, 0x0D460D3E), (0x0D4C, 0x0D460D57), (0x0D4B, 0x0D470D3E), (0x0DDA, 0x0DD90DCA),
  (0x0DDC, 0x0DD90DCF), (0x0DDE, 0x0DD90DDF), (0x0DDD, 0x0DDC0DCA), (0x0F69, 0x0F400FB5),
  (0x0F43, 0x0F420FB7), (0x0F4D, 0x0F4C0FB7), (0x0F52, 0x0F510FB7), (0x0F57, 0x0F560FB7),
  (0x0F5C, 0x0F5B0FB7), (0x0F73, 0x0F710F72), (0x0F75, 0x0F710F74), (0x0F81, 0x0F710F80),
  (0x0FB9, 0x0F900FB5), (0x0F93, 0x0F920FB7), (0x0F9D, 0x0F9C0FB7), (0x0FA2, 0x0FA10FB7),
  (0x0FA7, 0x0FA60FB7), (0x0FAC, 0x0FAB0FB7), (0x0F76, 0x0FB20F80), (0x0F78, 0x0FB30F80),
  (0x1026, 0x1025102E), (0x1B06, 0x1B051B35), (0x1B08, 0x1B071B35), (0x1B0A, 0x1B091B35),
  (0x1B0C, 0x1B0B1B35), (0x1B0E, 0x1B0D1B35), (0x1B12, 0x1B111B35), (0x1B3B, 0x1B3A1B35),
  (0x1B3D, 0x1B3C1B35), (0x1B40, 0x1B3E1B35), (0x1B41, 0x1B3F1B35), (0x1B43, 0x1B421B35),
  (0x1E38, 0x1E360304), (0x1E39, 0x1E370304), (0x1E5C, 0x1E5A0304), (0x1E5D, 0x1E5B0304),
  (0x1E68, 0x1E620307), (0x1E69, 0x1E630307), (0x1EAC, 0x1EA00302), (0x1EB6, 0x1EA00306),
  (0x1EAD, 0x1EA10302), (0x1EB7, 0x1EA10306), (0x1EC6, 0x1EB80302), (0x1EC7, 0x1EB90302),
  (0x1ED8, 0x1ECC0302), (0x1ED9, 0x1ECD0302), (0x1F02, 0x1F000300), (0x1F04, 0x1F000301),
  (0x1F06, 0x1F000342), (0x1F80, 0x1F000345), (0x1F03, 0x1F010300), (0x1F05, 0x1F010301),
  (0x1F07, 0x1F010342), (0x1F81, 0x1F010345), (0x1F82, 0x1F020345), (0x1F83, 0x1F030345),
  (0x1F84, 0x1F040345), (0x1F85, 0x1F050345), (0x1F86, 0x1F060345), (0x1F87, 0x1F070345),
  (0x1F0A, 0x1F080300), (0x1F0C, 0x1F080301), (0x1F0E, 0x1F080342), (0x1F88, 0x1F080345),
  (0x1F0B, 0x1F090300), (0x1F0D, 0x1F090301), (0x1F0F, 0x1F090342), (0x1F89, 0x1F090345),
  (0x1F8A, 0x1F0A0345), (0x1F8B, 0x1F0B0345), (0x1F8C, 0x1F0C0345), (0x1F8D, 0x1F0D0345),
  (0x1F8E, 0x1F0E0345), (0x1F8F, 0x1F0F0345), (0x1F12, 0x1F100300), (0x1F14, 0x1F100301),
  (0x1F13, 0x1F110300), (0x1F15, 0x1F110301), (0x1F1A, 0x1F180300), (0x1F1C, 0x1F180301),
  (0x1F1B, 0x1F190300), (0x1F1D, 0x1F190301), (0x1F22, 0x1F200300), (0x1F24, 0x1F200301),
  (0x1F26, 0x1F200342), (0x1F90, 0x1F200345), (0x1F23, 0x1F210300), (0x1F25, 0x1F210301),
  (0x1F27, 0x1F210342), (0x1F91, 0x1F210345), (0x1F92, 0x1F220345), (0x1F93, 0x1F230345),
  (0x1F94, 0x1F240345), (0x1F95, 0x1F250345), (0x1F96, 0x1F260345), (0x1F97, 0x1F270345),
  (0x1F2A, 0x1F280300), (0x1F2C, 0x1F280301), (0x1F2E, 0x1F280342), (0x1F98, 0x1F280345),
  (0x1F2B, 0x1F290300), (0x1F2D, 0x1F290301), (0x1F2F, 0x1F290342), (0x1F99, 0x1F290345),
  (0x1F9A, 0x1F2A0345), (0x1F9B, 0x1F2B0345), (0x1F9C, 0x1F2C0345), (0x1F9D, 0x1F2D0345),
  (0x1F9E, 0x1F2E0345), (0x1F9F, 0x1F2F0345), (0x1F32, 0x1F300300), (0x1F34, 0x1F300301),
  (0x1F36, 0x1F300342), (0x1F33, 0x1F310300), (0x1F35, 0x1F310301), (0x1F37, 0x1F310342),
  (0x1F3A, 0x1F380300), (0x1F3C, 0x1F380301), (0x1F3E, 0x1F380342), (0x1F3B, 0x1F390300),
  (0x1F3D, 0x1F390301), (0x1F3F, 0x1F390342), (0x1F42, 0x1F400300), (0x1F44, 0x1F400301),
  (0x1F43, 0x1F410300), (0x1F45, 0x1F410301), (0x1F4A, 0x1F480300), (0x1F4C, 0x1F480301),
  (0x1F4B, 0x1F490300), (0x1F4D, 0x1F490301), (0x1F52, 0x1F500300), (0x1F54, 0x1F500301),
  (0x1F56, 0x1F500342), (0x1F53, 0x1F510300), (0x1F55, 0x1F510301), (0x1F57, 0x1F510342),
  (0x1F5B, 0x1F590300), (0x1F5D, 0x1F590301), (0x1F5F, 0x1F590342), (0x1F62, 0x1F600300),
  (0x1F64, 0x1F600301), (0x1F66, 0x1F600342), (0x1FA0, 0x1F600345), (0x1F63, 0x1F610300),
  (0x1F65, 0x1F610301), (0x1F67, 0x1F610342), (0x1FA1, 0x1F610345), (0x1FA2, 0x1F620345),
  (0x1FA3, 0x1F630345), (0x1FA4, 0x1F640345), (0x1FA5, 0x1F650345), (0x1FA6, 0x1F660345),
  (0x1FA7, 0x1F670345), (0x1F6A, 0x1F680300), (0x1F6C, 0x1F680301), (0x1F6E, 0x1F680342),
  (0x1FA8, 0x1F680345), (0x1F6B, 0x1F690300), (0x1F6D, 0x1F690301), (0x1F6F, 0x1F690342),
  (0x1FA9, 0x1F690345), (0x1FAA, 0x1F6A0345), (0x1FAB, 0x1F6B0345), (0x1FAC, 0x1F6C0345),
  (0x1FAD, 0x1F6D0345), (0x1FAE, 0x1F6E0345), (0x1FAF, 0x1F6F0345), (0x1FB2, 0x1F700345),
  (0x1FC2, 0x1F740345), (0x1FF2, 0x1F7C0345), (0x1FB7, 0x1FB60345), (0x1FCD, 0x1FBF0300),
  (0x1FCE, 0x1FBF0301), (0x1FCF, 0x1FBF0342), (0x1FC7, 0x1FC60345), (0x1FF7, 0x1FF60345),
  (0x1FDD, 0x1FFE0300), (0x1FDE, 0x1FFE0301), (0x1FDF, 0x1FFE0342), (0x219A, 0x21900338),
  (0x219B, 0x21920338), (0x21AE, 0x21940338), (0x21CD, 0x21D00338), (0x21CF, 0x21D20338),
  (0x21CE, 0x21D40338), (0x2204, 0x22030338), (0x2209, 0x22080338), (0x220C, 0x220B0338),
  (0x2224, 0x22230338), (0x2226, 0x22250338), (0x2241, 0x223C0338), (0x2244, 0x22430338),
  (0x2247, 0x22450338), (0x2249, 0x22480338), (0x226D, 0x224D0338), (0x2262, 0x22610338),
  (0x2270, 0x22640338), (0x2271, 0x22650338), (0x2274, 0x22720338), (0x2275, 0x22730338),
  (0x2278, 0x22760338), (0x2279, 0x22770338), (0x2280, 0x227A0338), (0x2281, 0x227B0338),
  (0x22E0, 0x227C0338), (0x22E1, 0x227D0338), (0x2284, 0x22820338), (0x2285, 0x22830338),
  (0x2288, 0x22860338), (0x2289, 0x22870338), (0x22E2, 0x22910338), (0x22E3, 0x22920338),
  (0x22AC, 0x22A20338), (0x22AD, 0x22A80338), (0x22AE, 0x22A90338), (0x22AF, 0x22AB0338),
  (0x22EA, 0x22B20338), (0x22EB, 0x22B30338), (0x22EC, 0x22B40338), (0x22ED, 0x22B50338),
  (0x2ADC, 0x2ADD0338), (0x3094, 0x30463099), (0x304C, 0x304B3099), (0x304E, 0x304D3099),
  (0x3050, 0x304F3099), (0x3052, 0x30513099), (0x3054, 0x30533099), (0x3056, 0x30553099),
  (0x3058, 0x30573099), (0x305A, 0x30593099), (0x305C, 0x305B3099), (0x305E, 0x305D3099),
  (0x3060, 0x305F3099), (0x3062, 0x30613099), (0x3065, 0x30643099), (0x3067, 0x30663099),
  (0x3069, 0x30683099), (0x3070, 0x306F3099), (0x3071, 0x306F309A), (0x3073, 0x30723099),
  (0x3074, 0x3072309A), (0x3076, 0x30753099), (0x3077, 0x3075309A), (0x3079, 0x30783099),
  (0x307A, 0x3078309A), (0x307C, 0x307B3099), (0x307D, 0x307B309A), (0x309E, 0x309D3099),
  (0x30F4, 0x30A63099), (0x30AC, 0x30AB3099), (0x30AE, 0x30AD3099), (0x30B0, 0x30AF3099),
  (0x30B2, 0x30B13099), (0x30B4, 0x30B33099), (0x30B6, 0x30B53099), (0x30B8, 0x30B73099),
  (0x30BA, 0x30B93099), (0x30BC, 0x30BB3099), (0x30BE, 0x30BD3099), (0x30C0, 0x30BF3099),
  (0x30C2, 0x30C13099), (0x30C5, 0x30C43099), (0x30C7, 0x30C63099), (0x30C9, 0x30C83099),
  (0x30D0, 0x30CF3099), (0x30D1, 0x30CF309A), (0x30D3, 0x30D23099), (0x30D4, 0x30D2309A),
  (0x30D6, 0x30D53099), (0x30D7, 0x30D5309A), (0x30D9, 0x30D83099), (0x30DA, 0x30D8309A),
  (0x30DC, 0x30DB3099), (0x30DD, 0x30DB309A), (0x30F7, 0x30EF3099), (0x30F8, 0x30F03099),
  (0x30F9, 0x30F13099), (0x30FA, 0x30F23099), (0x30FE, 0x30FD3099), (0xFB2C, 0xFB4905C1),
  (0xFB2D, 0xFB4905C2)]

end NetatalkClient
