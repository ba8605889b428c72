import OverrideLint.Json.Value
import OverrideLint.Text.Quoted

/-! JSON text on one line, with a blank after each comma and colon. Characters
outside ASCII are written as UTF-16 escapes. -/
namespace OverrideLint.Json

def unicodeEscape (unit : Nat) : Text :=
  '\\' :: 'u' :: Text.hex 4 unit

/-- The escape of a character: one UTF-16 unit, or two above U+FFFF. -/
def escapeUnits (n : Nat) : Text :=
  if n < 0x10000 then unicodeEscape n
  else unicodeEscape (0xD800 + (n - 0x10000) / 0x400) ++
    unicodeEscape (0xDC00 + (n - 0x10000) % 0x400)

def escapeChar (c : Char) : Text :=
  if c == '"' || c == '\\' then ['\\', c]
  else if c == '\n' then ['\\', 'n']
  else if c == '\r' then ['\\', 'r']
  else if c == '\t' then ['\\', 't']
  else if c.toNat == 0x8 then ['\\', 'b']
  else if c.toNat == 0xC then ['\\', 'f']
  else if 0x20 ≤ c.toNat && c.toNat ≤ 0x7E then [c]
  else escapeUnits c.toNat

def escapePoint : CodePoint → Text
  | .char c => escapeChar c
  | .surrogate s => unicodeEscape s.code

def renderString (s : WideString) : String :=
  "\"" ++ String.ofList (s.points.flatMap escapePoint) ++ "\""

mutual

def render : Json → String
  | null => "null"
  | bool true => "true"
  | bool false => "false"
  | int value => toString value
  | real literal => literal
  | string value => renderString value
  | array items => "[" ++ renderItems items ++ "]"
  | object fields => "\x7b" ++ renderFields fields ++ "\x7d"

def renderItems : List Json → String
  | [] => ""
  | [item] => item.render
  | item :: rest => item.render ++ ", " ++ renderItems rest

def renderFields : List (WideString × Json) → String
  | [] => ""
  | [(key, value)] => renderString key ++ ": " ++ value.render
  | (key, value) :: rest => renderString key ++ ": " ++ value.render ++ ", " ++ renderFields rest

end

end OverrideLint.Json
