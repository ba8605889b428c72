import OverrideLint.Text.Basic

/-! Characters that were encoded after those of `Letter`, `Mark` and `Number`, as ranges
of code points in increasing order. Tag names may hold them. Keywords and printing keep
to the older tables. -/
namespace OverrideLint.Text

/-- Letters, marks, letter numbers and decimal digits of later date. -/
def recentRanges : List (Nat × Nat) :=
  [(0x558, 0x558), (0x58B, 0x58C), (0x5C8, 0x5C9), (0x88F, 0x88F), (0x897, 0x897), (0xB53, 0xB54),
   (0xC5C, 0xC5C), (0xCDC, 0xCDC), (0xCF3, 0xCF3), (0xECE, 0xECE), (0x1ACF, 0x1ADE),
   (0x1AE0, 0x1AF0), (0x1C89, 0x1C8A), (0x208F, 0x208F), (0x209D, 0x209F), (0xA7CB, 0xA7CF),
   (0xA7D2, 0xA7D2), (0xA7D4, 0xA7D4), (0xA7DA, 0xA7E2), (0xA7F1, 0xA7F1), (0xAB6C, 0xAB6D),
   (0x105C0, 0x105F3), (0x107BB, 0x107BF), (0x10940, 0x10959), (0x10D40, 0x10D65),
   (0x10D69, 0x10D6D), (0x10D6F, 0x10D85), (0x10EC2, 0x10EC7), (0x10ECB, 0x10ECB),
   (0x10ED9, 0x10ED9), (0x10EF0, 0x10EFF), (0x1123F, 0x11241), (0x11380, 0x11389),
   (0x1138B, 0x1138B), (0x1138E, 0x1138E), (0x11390, 0x113B5), (0x113B7, 0x113C0),
   (0x113C2, 0x113C2), (0x113C5, 0x113C5), (0x113C7, 0x113CA), (0x113CC, 0x113D3),
   (0x113E1, 0x113E2), (0x116D0, 0x116E3), (0x11B0A, 0x11B0A), (0x11B60, 0x11B67),
   (0x11BC0, 0x11BE0), (0x11BF0, 0x11BF9), (0x11DB0, 0x11DDB), (0x11DE0, 0x11DE9),
   (0x11F00, 0x11F10), (0x11F12, 0x11F3A), (0x11F3E, 0x11F42), (0x11F50, 0x11F5A),
   (0x12475, 0x1247F), (0x12550, 0x12686), (0x1342F, 0x1342F), (0x13440, 0x13455),
   (0x13460, 0x143FA), (0x16100, 0x16139), (0x16D40, 0x16D6C), (0x16D70, 0x16D79),
   (0x16EA0, 0x16EB8), (0x16EBB, 0x16ED3), (0x16FF2, 0x16FF6), (0x187F8, 0x187FF),
   (0x18CD6, 0x18CD6), (0x18CFF, 0x18CFF), (0x18D09, 0x18D1F), (0x18D80, 0x18DF2),
   (0x18E00, 0x19191), (0x191A0, 0x191D2), (0x1B123, 0x1B123), (0x1B132, 0x1B132),
   (0x1B155, 0x1B155), (0x1B168, 0x1B168), (0x1CCF0, 0x1CCF9), (0x1D127, 0x1D127),
   (0x1D250, 0x1D250), (0x1D6A6, 0x1D6A6), (0x1DF1F, 0x1DF81), (0x1DF90, 0x1DFCD),
   (0x1E030, 0x1E06D), (0x1E08F, 0x1E08F), (0x1E4D0, 0x1E4F9), (0x1E5D0, 0x1E5FA),
   (0x1E6C0, 0x1E6DE), (0x1E6E0, 0x1E6F5), (0x1E6FE, 0x1E6FF), (0x2B739, 0x2B73F),
   (0x2B81E, 0x2B81E), (0x2CEA2, 0x2CEAD), (0x2EBF0, 0x2EE5D), (0x31350, 0x33479),
   (0x3D000, 0x3FC3F)]

end OverrideLint.Text
