import Screencast.Agent.Service

/-!
# The command line

`-c` and `--config` name the settings file, `--gen-config` prints the standard settings,
`--list-displays` prints the displays, `-h` and `--help` the usage; with none of them the agent
serves viewers. A flag may stand once, a value may not be empty nor look like a flag,
and nothing else is accepted.
-/

namespace Screencast

inductive Request where
  | showUsage
  | printSettings
  | listDisplays (path : String)
  | serve (path : String)
  deriving DecidableEq, Inhabited

/-- What has been read of a command line. -/
structure Flags where
  path : Option String
  printsSettings : Bool
  listsDisplays : Bool
  deriving DecidableEq, Inhabited

namespace CommandLine

/-- The settings file unless another is named. -/
def standardPath : String := "deskcast-agent.toml"

def usage : String :=
  "Adaptive desktop streaming agent\n\n" ++
  "Usage: deskcast-agent [OPTIONS]\n\n" ++
  "Options:\n" ++
  "  -c, --config <CONFIG>  Path to configuration TOML file [default: deskcast-agent.toml]\n" ++
  "      --gen-config       Print the default configuration to stdout and exit\n" ++
  "      --list-displays    Print the attached displays and exit\n" ++
  "  -h, --help             Print help\n"

/-- The flags with the path named; it may be named once and may not be empty. -/
def setPath (f : Flags) (path : String) : Option Flags :=
  if f.path.isSome || path.isEmpty then none else some { f with path := some path }

/-- The flags with the wish for the settings. -/
def setPrint (f : Flags) : Option Flags := if f.printsSettings then none else some { f with printsSettings := true }

/-- The flags with the wish for the displays. -/
def setList (f : Flags) : Option Flags := if f.listsDisplays then none else some { f with listsDisplays := true }

inductive Argument where
  | help
  | print
  | list
  /-- The path is the next argument. -/
  | pathAhead
  | path (value : String)
  /-- Nothing but bare words may follow, and the agent takes none. -/
  | lastFlag
  | unknown
  deriving DecidableEq, Inhabited

def Argument.ofString (s : String) : Argument :=
  match s.toList with
  | ['-', '-'] => .lastFlag
  | '-' :: '-' :: long =>
    let name := String.ofList (long.takeWhile (· ≠ '='))
    match long.dropWhile (· ≠ '=') with
    | [] =>
      if name = "help" then .help
      else if name = "gen-config" then .print
      else if name = "list-displays" then .list
      else if name = "config" then .pathAhead
      else .unknown
    | _ :: value => if name = "config" then .path (String.ofList value) else .unknown
  | '-' :: 'h' :: _ => .help
  | ['-', 'c'] => .pathAhead
  | '-' :: 'c' :: '=' :: value => .path (String.ofList value)
  | '-' :: 'c' :: value => .path (String.ofList value)
  | _ => .unknown

/-- A word that is no flag: one that does not begin with a dash, or a dash alone. -/
def isWord (s : String) : Bool :=
  match s.toList with
  | ['-'] => true
  | '-' :: _ => false
  | _ => true

/-- What the flags ask for; the settings are printed in preference to the displays. -/
def requestOf (f : Flags) : Request :=
  let path := f.path.getD standardPath
  if f.printsSettings then .printSettings
  else if f.listsDisplays then .listDisplays path
  else .serve path

/-- What the arguments ask for behind these flags. -/
def requestFrom (f : Flags) : List String → Option Request
  | [] => some (requestOf f)
  | arg :: rest =>
    match Argument.ofString arg with
    | .help => some .showUsage
    | .print => (setPrint f).bind fun f => requestFrom f rest
    | .list => (setList f).bind fun f => requestFrom f rest
    | .path value => (setPath f value).bind fun f => requestFrom f rest
    | .pathAhead =>
      match rest with
      | value :: rest => if isWord value then (setPath f value).bind fun f => requestFrom f rest else none
      | [] => none
    | .lastFlag => if rest.isEmpty then some (requestOf f) else none
    | .unknown => none

/-- What a command line asks for, `none` for a bad one. -/
def request (args : List String) : Option Request := requestFrom ⟨none, false, false⟩ args

/-- The file that the arguments want read. -/
def wantedPath (args : List String) : Option String :=
  match request args with
  | some (.listDisplays path) => some path
  | some (.serve path) => some path
  | _ => none

end CommandLine

/-- How a run of the program ends. -/
structure Outcome where
  code : UInt8
  output : String
  deriving DecidableEq, Inhabited

/-- The outcome of a command line, given what files hold and what the host offers. -/
def CommandLine.run (args : List String) (contents : String → Option ByteArray) (network : Network) : Outcome :=
  match request args with
  | none => ⟨2, ""⟩
  | some .showUsage => ⟨0, usage⟩
  | some .printSettings => ⟨0, AgentSettings.standard.write ++ "\n"⟩
  | some (.listDisplays path) => ⟨0, (Agent.new (.load (contents path))).listing⟩
  | some (.serve path) =>
    match (Agent.new (.load (contents path))).accept network with
    | .ok _ => ⟨0, ""⟩
    | .error _ => ⟨1, ""⟩

end Screencast
