import CallFabric.Text.Bytes

namespace CallFabric.Percent

def octet? (high low : UInt8) : Option UInt8 := do
  let h ← Bytes.hexValue? high
  let l ← Bytes.hexValue? low
  return UInt8.ofNat (h * 16 + l)

-- A percent sign without two digits behind it stands for itself.
def decode : Bytes → Bytes
  | 0x25 :: high :: low :: rest =>
    match octet? high low with
    | some b => b :: decode rest
    | none => 0x25 :: decode (high :: low :: rest)
  | b :: rest => b :: decode rest
  | [] => []

end CallFabric.Percent
