import OverrideLint.Text.Letter
import OverrideLint.Text.Mark
import OverrideLint.Text.Number
import OverrideLint.Text.Recent

/-! Word characters, in the wide sense of tag names and in the narrow sense that
decides where a keyword ends. -/
namespace OverrideLint.Text

def isAsciiAlphanumeric (c : Char) : Bool :=
  c.isAlphanum

/-- Letters and numbers of any script. -/
def isAlphanumeric (c : Char) : Bool :=
  isAsciiAlphanumeric c || (0x80 ≤ c.toNat && (inRanges letterRanges c || inRanges decimalRanges c
    || inRanges letterNumberRanges c || inRanges otherNumberRanges c))

/-- A character that continues a keyword: a letter, a number or the underscore. -/
def continuesKeyword (c : Char) : Bool :=
  c == '_' || isAlphanumeric c

/-- Connector punctuation, of which the underscore is the ASCII member. -/
def isConnector (c : Char) : Bool :=
  inRanges [(0x5F, 0x5F), (0x203F, 0x2040), (0x2054, 0x2054), (0xFE33, 0xFE34),
    (0xFE4D, 0xFE4F), (0xFF3F, 0xFF3F)] c

/-- Symbols that stand for letters: the circled, squared and negative ones. -/
def isLetterSymbol (c : Char) : Bool :=
  inRanges [(0x24B6, 0x24E9), (0x1F130, 0x1F149), (0x1F150, 0x1F169), (0x1F170, 0x1F189)] c

/-- Alphabetic characters, marks, decimal digits, connectors and the two joiners, those
of recent date among them. -/
def isWord (c : Char) : Bool :=
  isAsciiAlphanumeric c || isConnector c
    || (0x80 ≤ c.toNat && (inRanges letterRanges c || inRanges markRanges c
      || inRanges decimalRanges c || inRanges letterNumberRanges c || isLetterSymbol c
      || inRanges recentRanges c || c.toNat == 0x200C || c.toNat == 0x200D))

def isDecimal (c : Char) : Bool :=
  inRanges decimalRanges c

end OverrideLint.Text
