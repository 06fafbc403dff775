import Telefile.Config.Reading
import Telefile.Text.Columns
import Telefile.Text.Quoted

/-!
# The command line of the server

* `Options.parse` reads arguments from left to right; the first fault, or a request for help, ends
  the reading, and the environment gives a port that the arguments leave open;
* `Options.configure` lays the options over the configuration file;
* **`launch`** is what a start comes to: help, a usage error, a refusal, or a server that listens.
-/

namespace Telefile

/-- What the arguments say. -/
structure Options where
  config : Option Path
  port : Option Nat
  bind : Option IpAddress
  root : Option Path
  closeOnSessionEnd : Bool
  deriving DecidableEq, Repr

/-- Why the reading of arguments ends early. -/
inductive EarlyEnd
  | help
  | usage
  deriving DecidableEq, Repr

/-! ## 1. Options -/

/-- An option that has a value. -/
inductive Valued
  | config
  | port
  | bind
  | root
  deriving DecidableEq, Repr

/-- What an option is. -/
inductive Switch
  | valued (v : Valued)
  | closeOnSessionEnd
  | help
  deriving DecidableEq, Repr

namespace Switch

/-- The option with a long name. -/
def ofLong? : String → Option Switch
  | "config" => some (.valued .config)
  | "port" => some (.valued .port)
  | "bind" => some (.valued .bind)
  | "root" => some (.valued .root)
  | "close-on-session-end" => some .closeOnSessionEnd
  | "help" => some .help
  | _ => none

/-- The option with a short name. -/
def ofShort? : Char → Option Switch
  | 'c' => some (.valued .config)
  | 'p' => some (.valued .port)
  | 'h' => some .help
  | _ => none

end Switch

/-- A port: a decimal number, which may have a sign. -/
def portOf? (s : String) : Option Nat :=
  let scan : Scan (Bool × List Nat) := do
    let sign ← Scan.optional (Scan.one fun c => c == '+' || c == '-')
    let ds ← Scan.many1 (Scan.digit 10)
    pure (sign == some '-', ds)
  match Scan.whole scan s with
  | none => none
  | some (minus, ds) =>
    let n := Scan.valueOf 10 ds
    if (minus ∧ n ≠ 0) ∨ 65535 < n then none else some n

/-- A path, which must not be empty. -/
def pathOf? (s : String) : Option Path := if s = "" then none else some (Path.ofString s)

namespace Options

/-- Nothing is said. -/
def none : Options := ⟨.none, .none, .none, .none, false⟩

/-- The value of an option that is given for the first time. -/
def first? {α : Type} (before after : Option α) : Except EarlyEnd (Option α) :=
  match before, after with
  | .none, some a => .ok (some a)
  | _, _ => .error .usage

/-- An option is given a value. -/
def give (o : Options) (v : Valued) (s : String) : Except EarlyEnd Options :=
  match v with
  | .config => (first? o.config (pathOf? s)).map fun config => { o with config }
  | .port => (first? o.port (portOf? s)).map fun port => { o with port }
  | .bind => (first? o.bind (IpAddress.ofString? s)).map fun bind => { o with bind }
  | .root => (first? o.root (pathOf? s)).map fun root => { o with root }

/-- The option to close descriptors is given. -/
def giveClose (o : Options) : Except EarlyEnd Options :=
  if o.closeOnSessionEnd then .error .usage else .ok { o with closeOnSessionEnd := true }

/-! ## 2. Arguments -/

/-- The options after an argument, and the one that still lacks its value. -/
abbrev Progress := Options × Option Valued

/-- Short options in one argument; what follows one that has a value is that value. -/
def shorts (o : Options) : List Char → Except EarlyEnd Progress
  | [] => .ok (o, .none)
  | c :: rest =>
    match Switch.ofShort? c, rest with
    | .none, _ => .error .usage
    | some .help, _ => .error .help
    | some .closeOnSessionEnd, _ => o.giveClose.bind fun o => shorts o rest
    | some (.valued v), [] => .ok (o, some v)
    | some (.valued v), '=' :: value => (o.give v (.ofList value)).map fun o => (o, .none)
    | some (.valued v), value => (o.give v (.ofList value)).map fun o => (o, .none)

/-- A long option, its value perhaps behind an equals sign. -/
def long (o : Options) (cs : List Char) : Except EarlyEnd Progress :=
  let name := String.ofList (cs.takeWhile fun c => c != '=')
  let value := (cs.dropWhile fun c => c != '=').tail?
  match Switch.ofLong? name, value with
  | some .help, .none => .error .help
  | some .closeOnSessionEnd, .none => o.giveClose.map fun o => (o, .none)
  | some (.valued v), .none => .ok (o, some v)
  | some (.valued v), some s => (o.give v (.ofList s)).map fun o => (o, .none)
  | _, _ => .error .usage

/-- All arguments, the first of which may be the value of `lacking`. Nothing may follow `--`. -/
def read (o : Options) (lacking : Option Valued) : List String → Except EarlyEnd Options
  | [] => if lacking.isSome then .error .usage else .ok o
  | arg :: rest =>
    match lacking, arg.toList with
    | .none, ['-', '-'] => if rest = [] then .ok o else .error .usage
    | .none, '-' :: '-' :: cs => (o.long cs).bind fun p => read p.1 p.2 rest
    | .none, '-' :: c :: cs => (o.shorts (c :: cs)).bind fun p => read p.1 p.2 rest
    | some _, '-' :: _ :: _ => .error .usage
    | some v, _ => (o.give v arg).bind fun o => read o .none rest
    | .none, _ => .error .usage

/-- The options that arguments give, with a port from the environment if they give none. -/
def parse (port : Option String) (args : List String) : Except EarlyEnd Options :=
  match read none .none args, port with
  | .ok o, some s => if o.port.isSome then .ok o else o.give .port s
  | r, _ => r

/-! ## 3. The configuration -/

/-- The configuration with the options laid over it. -/
def apply (o : Options) (c : ServerConfig) : ServerConfig :=
  { c with
    bind := .ofIp (o.bind.getD c.bind.ip) (o.port.getD c.bind.port)
    service :=
      { c.service with
        root := o.root <|> c.service.root
        closeOnSessionEnd := o.closeOnSessionEnd || c.service.closeOnSessionEnd } }

end Options

/-! ## 4. Starting -/

/-- Why a server does not start. -/
inductive StartError
  | config (path : Path) (e : ConfigError)
  /-- The limits do not go together, or the address cannot be bound. -/
  | binding
  deriving DecidableEq, Repr

/-- The wording of a refusal; an unreadable file is followed by the host's own words. -/
def StartError.wording : StartError → String
  | config path e =>
    let whole := s!"loading {path.display}: {e.message}"
    match e with
    | .unreadable _ cause => s!"{whole}: {cause.message}"
    | _ => whole
  | binding => "binding listener"

/-- A refusal as the log shows it. -/
def StartError.message (e : StartError) : String := Terminal.guarded e.wording

/-- What a start comes to. A server that gets as far as its address says what it starts with. -/
inductive Launch
  | help (text : String)
  | usage
  | refused (started : Option String) (e : StartError)
  | listening (started : String) (config : ServerConfig)

/-- The column in which the help text describes an option. -/
def helpColumn : Nat := 30

/-- The width of the help text. -/
def helpWidth : Nat := 100

/-- The help text; `port` is what the environment gives, of which a terminal's control sequences are
left out. -/
def helpText (port : Option String) : String :=
  let describe (text : String) :=
    Columns.indent helpColumn (Columns.wrap (helpWidth - helpColumn) text)
  Terminal.visible <|
    "Serve POSIX-style file operations to remote clients\n\n" ++
    "Usage: remora-server [OPTIONS]\n\n" ++
    "Options:\n" ++
    "  -c, --config <CONFIG>       TOML config file\n" ++
    "  -p, --port <PORT>           " ++
      describe ("Port to listen on [env: REMORA_PORT=" ++ port.getD "" ++ "]") ++ "\n" ++
    "      --bind <BIND>           Address to bind\n" ++
    "      --root <ROOT>           Confine client paths beneath this directory\n" ++
    "      --close-on-session-end  Close a session's descriptors when its connection ends\n" ++
    "  -h, --help                  Print help\n"

/-- What a server says it starts with. -/
def startedText (c : ServerConfig) : String :=
  let root := Quoted.optional (fun (p : Path) => Quoted.text p.display) c.service.root
  s!"bind={c.bind.render} root={root} close_on_session_end={c.service.closeOnSessionEnd}"

/-- Whether an address belongs to every host: a loopback address, or the unspecified one. -/
def IpAddress.isLocal : IpAddress → Bool
  | .v4 a => a.octets.head? == some 127 || a.octets == [0, 0, 0, 0]
  | .v6 a => a.groups.dropLast == List.replicate 7 0 && a.groups.getLast?.any fun g => g ≤ 1

/-- A start with a configuration. -/
def launchWith (c : ServerConfig) : Launch :=
  let started := startedText c
  match c.validate with
  | .ok c => if c.bind.ip.isLocal then .listening started c else .refused (some started) .binding
  | .error _ => .refused (some started) .binding

/-- **What a start with arguments comes to.** `port` is what the environment gives, and `load`
reads a configuration file. -/
def launch (port : Option String) (args : List String)
    (load : Path → Except ConfigError ServerConfig) : Launch :=
  match Options.parse port args with
  | .error .help => .help (helpText port)
  | .error .usage => .usage
  | .ok o =>
    match o.config with
    | none => launchWith (o.apply .default)
    | some p =>
      match load p with
      | .error e => .refused none (.config p e)
      | .ok c => launchWith (o.apply c)

end Telefile
