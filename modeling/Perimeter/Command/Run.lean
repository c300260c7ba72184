import Perimeter.Command.Batches
import Perimeter.Command.Shapes
import Perimeter.Command.Usage
import Perimeter.Command.Walks
import Perimeter.Version

/-!
# The command line

`Command.run` takes the words of a command line through all steps: the command is found, its flags are
read, its arguments are counted, settings are loaded, and then it runs. The first step that fails decides
the message.
-/

namespace Perimeter.Command

-- Settings ------------------------------------------------------------------------------------

/-- Writes a settings file with all defaults. -/
def Job.runConfigInit (j : Job) : Action Unit := do
  let file := if j.arguments.isEmpty then s!"{Settings.programName}.yaml" else j.argument
  match (← Action.tree).find file with
  | .ok _ =>
    if !j.switch "force" then
      throw (.plain s!"{file} already exists (use --force to overwrite)")
  | .error .missing => pure ()
  | .error e => throw (.plain s!"stat {file}: {e.message}")
  let (t, outcome) := Settings.writeDefaults (← Action.tree) file
  Action.setTree t
  Action.ofExcept (Failure.within "failed to write config" outcome)
  Action.print s!"Wrote {file}\n"

/-- Shows the settings. -/
def Job.runConfigShow (j : Job) : Action Unit := Action.print (j.settings.data.yaml.render 4)

/-- Shows where settings come from. -/
def Job.runConfigPath (j : Job) : Action Unit :=
  Action.print (Settings.describeSources j.environment j.loaded.file)

-- The service ---------------------------------------------------------------------------------

/-- The service that some settings ask for. -/
def serviceConfig (s : Settings) : Service.Config where
  host := s.serving.host
  port := s.serving.port
  corsOrigin := s.serving.corsOrigin
  maxUpload := s.serving.maxUpload
  timeout := s.serving.timeout
  chunkSize := s.serving.chunkSize
  blob := s.blobConfig
  binarize := s.binarizeOptions
  overlay := s.overlayOptions

/-- Takes an address for listening; only addresses of this machine can be taken. -/
def listen (host address : String) : Except Failure Unit :=
  if Web.isLocalHost host then .ok ()
  else if Web.isNumericHost host then
    .error (.plain s!"listen tcp {address}: bind: cannot assign requested address")
  else .error (.plain s!"listen tcp: lookup {host}: no such host")

/-- Starts the service. -/
def Job.runServe (j : Job) : Action Unit := do
  let service ← Action.ofExcept
    (Failure.within "failed to initialize server" (Service.create (serviceConfig j.settings)))
  Action.record ⟨.info, "Starting trace server", [("addr", .text service.address)]⟩
  Action.ofExcept
    (Failure.within "server error" (listen j.settings.serving.host service.address))
  modify fun c => { c with service := some service }

-- All commands --------------------------------------------------------------------------------

/-- Runs a job. -/
def Job.run (j : Job) : Action Unit :=
  match j.command with
  | .trace => j.runTrace
  | .blobs => j.runBlobs
  | .batch => j.runBatch
  | .serve => j.runServe
  | .generate => j.runGenerate
  | .bench => j.runBench
  | .configInit => j.runConfigInit
  | .configShow => j.runConfigShow
  | .configPath => j.runConfigPath

/-- Refuses to go on without flags that a command cannot do without. -/
def checkRequired (c : Name) (given : Given) : Except Failure Unit :=
  match c.requiredFlags.filter fun name => (given.lookup name).isNone with
  | [] => .ok ()
  | missing =>
    let names := ", ".intercalate (missing.map fun name => s!"\"{name}\"")
    .error (.plain s!"required flag(s) {names} not set")

/-- The switch was given and is on. -/
def Given.isOn (g : Given) (name : String) : Bool :=
  match g.lookup name with
  | some (.switch b) => b
  | _ => false

/-- Loads the settings of a command and sets up the log. -/
def loadSettings (c : Name) (given : Given) (env : Environment) : Action Settings.Loaded := do
  let file := match given.lookup "config" with
    | some (.text s) => s
    | _ => ""
  let loaded ← Action.ofExcept (Failure.within "error loading configuration"
    (Settings.load (← Action.tree) env
      { file, checked := !c.toleratesSettings, flags := given.settings }))
  modify fun console => { console with threshold := logThreshold loaded.settings }
  Action.record ⟨.debug, "configuration loaded",
    [("file", .text loaded.file), ("command", .text (c.path.getLast?.getD ""))]⟩
  pure loaded

/-- Runs a command with the words behind its name, or asks for its explanation. -/
def runCommand (c : Name) (env : Environment) (words : List String) : Action Unit := do
  let line ← Action.ofExcept (Line.parse c.flags words)
  if line.given.isOn "help" then
    return ← Action.explain (.leaf c)
  Action.ofExcept (c.checkArguments line.arguments)
  let loaded ← loadSettings c line.given env
  Action.ofExcept (checkRequired c line.given)
  Job.run ⟨c, line.given, line.arguments, env, loaded⟩

/-- Answers words that name a group of commands: with the version, or with an explanation. -/
def runGroup (group : Node) (words : List String) : Action Unit := do
  let line ← Action.ofExcept (Line.parse group.ownFlags words)
  if !line.given.isOn "help" && line.given.isOn "version" then
    Action.print s!"{Settings.programName} version {Version.current.text}\n"
  else
    Action.explain group

/-- What a command line comes to. -/
structure Outcome where
  console : Console
  failure : Option Failure

/-- Ends an action: a failure is told, with a hint when there is one. -/
def conclude (hint : String) (outcome : Except Failure Unit × Console) : Outcome :=
  match outcome with
  | (.ok (), c) => ⟨c, none⟩
  | (.error e, c) =>
    ⟨{ c with messages := c.messages ++ [.text s!"Error: {e.message}\n{hint}"] }, some e⟩

/-- Runs a command line. -/
def run (tree : FileTree) (env : Environment) (words : List String) : Outcome :=
  let console : Console := { tree }
  match Node.follow 3 .root words with
  | (.leaf c, rest) => conclude "" ((runCommand c env rest).run.run console)
  | (.config, rest) => conclude "" ((runGroup .config rest).run.run console)
  | (.guide _, rest) => ⟨{ console with subject := some (Node.follow 2 .root rest).1 }, none⟩
  | (.root, rest) =>
    match plainWords Node.root.flags rest with
    | [] => conclude "" ((runGroup .root rest).run.run console)
    | w :: _ =>
      conclude s!"Run '{Settings.programName} --help' for usage.\n"
        (.error (unknownCommand w), console)

end Perimeter.Command
