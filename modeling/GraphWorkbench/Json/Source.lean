import GraphWorkbench.Json.Reader
import GraphWorkbench.Text.Encoding
/-!
Where a value comes from: a text, or bytes that are first brought into text.
-/
namespace GraphWorkbench.Json

inductive Source where
  | text (s : String)
  | bytes (bs : List UInt8)

/-- Why a source has no value. -/
inductive SourceError where
  | encoding (e : Text.EncodingError)
  | text (e : ReadError)

def SourceError.message : SourceError → String
  | .encoding e => e.message
  | .text e => e.message

/-- Whether the source is sound and only a number in it is longer than numbers may be. -/
def SourceError.isLongInteger : SourceError → Bool
  | .encoding _ => false
  | .text e => e.isLongInteger

def Source.read (source : Source) : Except SourceError Json := do
  match source with
  | .text s => (parse s).mapError .text
  | .bytes bs =>
    let text ← (Text.decode bs).mapError .encoding
    (parseDecoded text).mapError .text

end GraphWorkbench.Json
