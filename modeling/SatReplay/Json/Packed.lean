/-
  SatReplay/Json/Packed.lean
  ==========================
  **Documents in zlib containers**: the canonical text, compressed.
-/
import SatReplay.Json.Reader
import SatReplay.Zlib.Container

namespace SatReplay.Json

inductive UnpackError where
  | notZlib
  | notText
  | unreadable (cause : ReadError)
deriving DecidableEq, Repr

def UnpackError.message : UnpackError → String
  | .notZlib => "deflate decompression error"
  | .notText => "stream did not contain valid UTF-8"
  | .unreadable cause => cause.message

/-- The compressed canonical text of a value. -/
def Value.pack (v : Value) : Bytes := Zlib.compress (Bytes.ofText v.canonical)

def Reader.unpack {α : Type} (reader : Reader α) (bytes : Bytes) : Except UnpackError α :=
  match Zlib.decompress? bytes with
  | none => .error .notZlib
  | some content =>
    match Bytes.toText? content with
    | none => .error .notText
    | some text => (reader.readText text).mapError UnpackError.unreadable

end SatReplay.Json
