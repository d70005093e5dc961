import CallFabric.Text.Percent
import CallFabric.Text.Utf8

namespace CallFabric.Form

-- A plus sign is a blank; it is one before escapes are undone, so an escaped one stays.
def decodeText (bs : Bytes) : String :=
  (Percent.decode (bs.map fun b => if b = 0x2b then 0x20 else b)).lossy

def pairOf (piece : Bytes) : String × String :=
  let key := piece.takeWhile (· ≠ 0x3d)
  let value := (piece.dropWhile (· ≠ 0x3d)).drop 1
  (decodeText key, decodeText value)

def pairs (bs : Bytes) : List (String × String) :=
  ((Bytes.pieces 0x26 bs).filter (!·.isEmpty)).map pairOf

end CallFabric.Form
