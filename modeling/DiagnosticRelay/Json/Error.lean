import DiagnosticRelay.Decimal.Shortest
import DiagnosticRelay.Text.Escaped

/-!
# Why a JSON text is refused

A text is read from left to right and the first problem ends the reading, be it a fault of the
notation or a value of the wrong kind. An `Error` names the problem; its `message` is the wording
and its `category` says whether the text is malformed, ends too early, or is well formed so far but
holds the wrong data.
-/

namespace DiagnosticRelay.Json

/-- What stood where something else was expected. -/
inductive Found where
  | null
  | truth (b : Bool)
  | whole (n : Int)
  | real (negative : Bool) (magnitude : Decimal.Binary64)
  | text (letters : List Char)
  | list
  | record
  deriving DecidableEq, Repr

/-- The wording for what was found. -/
def Found.describe : Found → String
  | .null => "null"
  | .truth b => s!"boolean `{b}`"
  | .whole n => s!"integer `{n}`"
  | .real negative magnitude =>
    let sign := if negative then "-" else ""
    "floating point `" ++ sign ++ String.ofList magnitude.shortest.text ++ "`"
  | .text letters => "string " ++ String.ofList (Text.escaped letters)
  | .list => "sequence"
  | .record => "map"

/-- A cause for which a text is refused. -/
inductive Error where
  | endInValue
  | endInString
  | endInList
  | endInRecord
  | colonExpected
  | listEndExpected
  | recordEndExpected
  | wordExpected
  | valueExpected
  | keyExpected
  | badEscape
  | badNumber
  | numberTooLarge
  | loneSurrogate
  | brokenSurrogatePair
  | controlCharacter
  | trailingComma
  | trailingCharacters
  | wrongKind (found : Found) (expected : String)
  | outOfRange (found : Found) (expected : String)
  | missingField (name : String)
  | duplicateField (name : String)
  | wrongLength (length : Nat) (expected : String)
  deriving DecidableEq, Repr

/-- The kinds of refusal. -/
inductive Category where
  | malformed
  | truncated
  | mismatched
  deriving DecidableEq, Repr

namespace Error

/-- The kind of a cause. -/
def category : Error → Category
  | .endInValue | .endInString | .endInList | .endInRecord => .truncated
  | .wrongKind .. | .outOfRange .. | .missingField _ | .duplicateField _ | .wrongLength .. =>
    .mismatched
  | _ => .malformed

/-- The wording of a cause. -/
def message : Error → String
  | .endInValue => "EOF while parsing a value"
  | .endInString => "EOF while parsing a string"
  | .endInList => "EOF while parsing a list"
  | .endInRecord => "EOF while parsing an object"
  | .colonExpected => "expected `:`"
  | .listEndExpected => "expected `,` or `]`"
  | .recordEndExpected => "expected `,` or `\x7d`"
  | .wordExpected => "expected ident"
  | .valueExpected => "expected value"
  | .keyExpected => "key must be a string"
  | .badEscape => "invalid escape"
  | .badNumber => "invalid number"
  | .numberTooLarge => "number out of range"
  | .loneSurrogate => "lone leading surrogate in hex escape"
  | .brokenSurrogatePair => "unexpected end of hex escape"
  | .controlCharacter =>
    "control character (\\u0000-\\u001F) found while parsing a string"
  | .trailingComma => "trailing comma"
  | .trailingCharacters => "trailing characters"
  | .wrongKind found expected => s!"invalid type: {found.describe}, expected {expected}"
  | .outOfRange found expected => s!"invalid value: {found.describe}, expected {expected}"
  | .missingField name => s!"missing field `{name}`"
  | .duplicateField name => s!"duplicate field `{name}`"
  | .wrongLength length expected => s!"invalid length {length}, expected {expected}"

end Error

end DiagnosticRelay.Json
