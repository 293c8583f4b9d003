/-
  SatReplay/Json/ReadError.lean
  =============================
  **Why a text is not read**: it is not JSON, or it is JSON of the wrong shape,
  or of the right shape with a value that is refused; and where in the text this
  is noticed.
-/
import SatReplay.Bytes.Base64
import SatReplay.Failure
import SatReplay.Json.Value
import SatReplay.Text.Position
import SatReplay.Text.Quoted

namespace SatReplay.Json

inductive GrammarError where
  | endInValue
  | endInString
  | endInArray
  | endInObject
  | valueExpected
  /-- A word that starts like `null`, `true` or `false` goes on differently. -/
  | otherWord
  | nameExpected
  | colonExpected
  | itemEndExpected
  | memberEndExpected
  | trailingComma
  | trailingText
  | badNumeral
  /-- No finite number is near. -/
  | tooLarge
  | control
  | badEscape
  /-- A half of a surrogate pair is where the other half or none is needed. -/
  | loneSurrogate
  /-- The second half of a surrogate pair is missing. -/
  | missingSurrogate
  | tooDeep
deriving DecidableEq, Repr

/-- What stands where a value is needed: a scalar, or the beginning of an array
    or an object. -/
inductive Found where
  | null
  | boolean (value : Bool)
  | number (value : Number)
  | string (text : String)
  | sequence
  | map
deriving DecidableEq, Repr

inductive Expected where
  | signed32
  | unsigned32
  | binary64
  | string
  | boolean
  | sequence
  | record (name : String)
  | proof
deriving DecidableEq, Repr

inductive DataError where
  | wrongType (found : Found) (expected : Expected)
  | outOfRange (value : Int) (expected : Expected)
  /-- A record written as an array has too few items. -/
  | wrongLength (given : Nat) (name : String) (fields : Nat)
  | missingField (name : String)
  | duplicateField (name : String)
  | notBase64 (cause : Base64.Defect)
  /-- A value of the right shape that means nothing. -/
  | refused (cause : Failure)
deriving DecidableEq, Repr

inductive Mistake where
  | grammar (cause : GrammarError)
  | data (cause : DataError)
deriving DecidableEq, Repr

structure ReadError where
  mistake : Mistake
  position : Position
deriving DecidableEq, Repr

/-! ### Wording -/

def GrammarError.message : GrammarError → String
  | .endInValue => "EOF while parsing a value"
  | .endInString => "EOF while parsing a string"
  | .endInArray => "EOF while parsing a list"
  | .endInObject => "EOF while parsing an object"
  | .valueExpected => "expected value"
  | .otherWord => "expected ident"
  | .nameExpected => "key must be a string"
  | .colonExpected => "expected \x60:\x60"
  | .itemEndExpected => "expected \x60,\x60 or \x60]\x60"
  | .memberEndExpected => "expected \x60,\x60 or \x60\x7d\x60"
  | .trailingComma => "trailing comma"
  | .trailingText => "trailing characters"
  | .badNumeral => "invalid number"
  | .tooLarge => "number out of range"
  | .control => "control character (\\u0000-\\u001F) found while parsing a string"
  | .badEscape => "invalid escape"
  | .loneSurrogate => "lone leading surrogate in hex escape"
  | .missingSurrogate => "unexpected end of hex escape"
  | .tooDeep => "recursion limit exceeded"

def Found.message : Found → String
  | .null => "null"
  | .boolean value => "boolean \x60" ++ (if value then "true" else "false") ++ "\x60"
  | .number (.integer value) => "integer \x60" ++ toString value ++ "\x60"
  | .number (.float value) => "floating point \x60" ++ Layout.document.text value ++ "\x60"
  | .string text => "string " ++ Quoted.quote text
  | .sequence => "sequence"
  | .map => "map"

def Expected.message : Expected → String
  | .signed32 => "i32"
  | .unsigned32 => "u32"
  | .binary64 => "f64"
  | .string => "a string"
  | .boolean => "a boolean"
  | .sequence => "a sequence"
  | .record name => "struct " ++ name
  | .proof => "a base64 encoded Solution proof"

def DataError.message : DataError → String
  | .wrongType found expected =>
    "invalid type: " ++ found.message ++ ", expected " ++ expected.message
  | .outOfRange value expected =>
    "invalid value: integer \x60" ++ toString value ++ "\x60, expected " ++ expected.message
  | .wrongLength given name fields =>
    "invalid length " ++ toString given ++ ", expected struct " ++ name ++ " with " ++
      toString fields ++ " elements"
  | .missingField name => "missing field \x60" ++ name ++ "\x60"
  | .duplicateField name => "duplicate field \x60" ++ name ++ "\x60"
  | .notBase64 cause => "Base64 decode failed: " ++ cause.message
  | .refused cause => cause.message

def Mistake.message : Mistake → String
  | .grammar cause => cause.message
  | .data cause => cause.message

def ReadError.message (e : ReadError) : String :=
  e.mistake.message ++ " at line " ++ toString e.position.line ++ " column " ++
    toString e.position.column

end SatReplay.Json
