import CallFabric.Codec
import CallFabric.ContentType

namespace CallFabric.Codec

structure Registry where
  codecs : Table Codec
  deriving DecidableEq, Repr

namespace Registry

def empty : Registry := ⟨[]⟩

def register (r : Registry) (contentType : String) (c : Codec) : Registry :=
  ⟨r.codecs.insert (ContentType.normalize contentType) c⟩

def lookup (r : Registry) (contentType : String) : Option Codec :=
  r.codecs.get? (ContentType.normalize contentType)

def size (r : Registry) : Nat :=
  r.codecs.length

def standard : Registry :=
  let texts := [ContentType.json, ContentType.form, ContentType.multipart]
  let withTexts := texts.foldl (fun r t => r.register t .json) empty
  ContentType.binaryTypes.foldl (fun r t => r.register t .messagePack) withTexts

end Registry
end CallFabric.Codec
