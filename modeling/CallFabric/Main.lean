import CallFabric.Command.Run
import CallFabric.Demo.Behaviour
import CallFabric.Gateway.Serve

namespace CallFabric.Command

def demonstration : Service.Directory :=
  ((Service.Directory.empty .standard).register
    (Demo.service "Demo" [("Refresh", "refresh"), ("Echo", "echo"), ("Profile", "profile"),
      ("Settings", "settings"), ("Map", "map"), ("Nothing", "nothing"), ("Fail", "fail"),
      ("Meta", "meta"), ("Sleep", "sleep")])).directory

def reply? (g : Gateway) (freshId : String) (r : Gateway.Request) : Option Reply :=
  (g.serve ⟨0, freshId, 0⟩ r).bind fun e =>
    match e.response with
    | .reply r => some r
    | .upgrade _ => none

end CallFabric.Command

open CallFabric in
def main (words : List String) : IO UInt32 := do
  let random ← IO.rand 0 0xffffffffffffffffffffffffffffffff
  let inherited ← IO.getEnv "RPC_GATE_TOKEN"
  let gateway := Gateway.ofConfig {} (.native Command.demonstration)
  let outcome := Command.run (Command.reply? gateway (requestIdOf random)) inherited words
  (← IO.getStdout).putStr outcome.out
  (← IO.getStderr).putStr outcome.err
  return outcome.exit.toUInt32
