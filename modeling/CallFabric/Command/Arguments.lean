import CallFabric.Text.Blank

namespace CallFabric.Command

structure Arguments where
  url : String
  mount : String
  token : Option String
  header : String
  service : String
  endpoint : String
  body : String
  deriving DecidableEq, Repr

structure Settings where
  url : Option String := none
  mount : Option String := none
  token : Option String := none
  header : Option String := none
  deriving DecidableEq, Repr

inductive Setting
  | url
  | mount
  | token
  | header
  deriving DecidableEq, Repr

namespace Setting

def ofLong? : String → Option Setting
  | "--url" => some .url
  | "--prefix" => some .mount
  | "--token" => some .token
  | "--header" => some .header
  | _ => none

def ofShort? : Char → Option Setting
  | 'u' => some .url
  | 'p' => some .mount
  | 't' => some .token
  | _ => none

-- None where the setting was given before.
def set? (s : Settings) (value : String) : Setting → Option Settings
  | .url => if s.url.isSome then none else some { s with url := some value }
  | .mount => if s.mount.isSome then none else some { s with mount := some value }
  | .token => if s.token.isSome then none else some { s with token := some value }
  | .header => if s.header.isSome then none else some { s with header := some value }

end Setting

inductive Topic
  | command
  | call
  | help
  deriving DecidableEq, Repr

inductive Parsed
  | call (a : Arguments)
  | help (t : Topic)
  | misuse
  deriving DecidableEq, Repr

inductive Word
  -- A setting or a request for help, perhaps with a value attached.
  | long (name : String) (attached : Option String)
  | short (letter : Char) (attached : Option String)
  | terminator
  | plain (s : String)
  deriving DecidableEq, Repr

def Word.ofText (s : String) : Word :=
  match s.toList with
  | '-' :: '-' :: [] => .terminator
  | '-' :: '-' :: cs =>
    let name := String.ofList ('-' :: '-' :: cs.takeWhile (· ≠ '='))
    match cs.dropWhile (· ≠ '=') with
    | _ :: value => .long name (some (.ofList value))
    | [] => .long name none
  | '-' :: letter :: '=' :: value => .short letter (some (.ofList value))
  | '-' :: letter :: [] => .short letter none
  | '-' :: letter :: value => .short letter (some (.ofList value))
  | _ => .plain s

def standardUrl : String := "http://localhost:8080"
def standardMount : String := "/rpc"
def standardHeader : String := "authtoken"
def standardBody : String := "\x7b\x7d"

def callOf (s : Settings) : List String → Parsed
  | service :: endpoint :: rest =>
    let arguments (body : String) : Parsed :=
      .call ⟨s.url.getD standardUrl, s.mount.getD standardMount, s.token,
        s.header.getD standardHeader, service, endpoint, body⟩
    match rest with
    | [] => arguments standardBody
    | [body] => arguments body
    | _ => .misuse
  | _ => .misuse

-- What follows the word `call`; `given` are the plain words so far.
def parseCall (s : Settings) (given : List String) : List String → Parsed
  | [] => callOf s given
  | word :: rest =>
    match Word.ofText word with
    | .plain w => if given.length < 3 then parseCall s (given ++ [w]) rest else .misuse
    | .terminator => callOf s (given ++ rest)
    | .long "--help" none | .short 'h' _ => .help .call
    | _ => .misuse

def parseHelp : List String → Parsed
  | [] => .help .command
  | ["call"] => .help .call
  | ["help"] => .help .help
  | _ => .misuse

def isValue (word : String) : Bool :=
  match Word.ofText word with
  | .plain _ => true
  | _ => false

def parseFrom (s : Settings) : List String → Parsed
  | [] => .misuse
  | word :: rest =>
    let set (setting : Option Setting) (attached : Option String) : Parsed :=
      match setting, attached with
      | none, _ => .misuse
      | some k, some value => ((k.set? s value).map fun s => parseFrom s rest).getD .misuse
      | some k, none =>
        match rest with
        | value :: rest =>
          if isValue value then ((k.set? s value).map fun s => parseFrom s rest).getD .misuse
          else .misuse
        | [] => .misuse
    match Word.ofText word with
    | .plain "call" => parseCall s [] rest
    | .plain "help" => parseHelp rest
    | .plain _ | .terminator => .misuse
    | .long "--help" none | .short 'h' _ => .help .command
    | .long name attached => set (Setting.ofLong? name) attached
    | .short letter attached => set (Setting.ofShort? letter) attached

def parse (words : List String) : Parsed := parseFrom {} words

def lines (ls : List String) : String := String.join (ls.map (· ++ "\n"))

def callAbout : String := "POST a JSON body to \x7bprefix\x7d/\x7bservice\x7d/\x7bendpoint\x7d"

def helpAbout : String := "Print this message or the help of the given subcommand(s)"

def Topic.text : Topic → String
  | .command => lines
    ["Call RPC endpoints through the gateway", "", "Usage: gate-cli [OPTIONS] <COMMAND>", "",
      "Commands:", "  call  " ++ callAbout, "  help  " ++ helpAbout, "", "Options:",
      "  -u, --url <URL>        [default: http://localhost:8080]",
      "  -p, --prefix <PREFIX>  [default: /rpc]",
      "  -t, --token <TOKEN>    Auth token, sent in \x60--header\x60 [env: RPC_GATE_TOKEN=]",
      "      --header <HEADER>  [default: authtoken]",
      "  -h, --help             Print help"]
  | .call => lines
    [callAbout, "", "Usage: gate-cli call <SERVICE> <ENDPOINT> [BODY]", "", "Arguments:",
      "  <SERVICE>   ", "  <ENDPOINT>  ",
      "  [BODY]      Request body; defaults to \x7b\x7d [default: \x7b\x7d]", "", "Options:",
      "  -h, --help  Print help"]
  | .help => lines
    [helpAbout, "", "Usage: gate-cli help [COMMAND]...", "", "Arguments:",
      "  [COMMAND]...  Print help for the subcommand(s)"]

end CallFabric.Command
