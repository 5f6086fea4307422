import GhOst.Base.LoadMap
import GhOst.Infra.Strconv
import GhOst.Logic.Applier
import GhOst.Logic.InstanceKeys

/-!
# Interactive commands (`go/logic/server.go`)

A command is a line of text. What it learns from outside is a parameter: the error of the hook, what
becomes of a file, whether a profile starts. So are floating point numbers, durations and the texts
of the errors of `strconv`. The file system is the list of the paths that exist.
-/

namespace GhOst.Logic

open Infra GhOst.Base GhOst.Mysql

inductive PrintStatusRule where
  | noPrintStatusRule
  | heuristicPrintStatusRule
  | forcePrintStatusRule
  | forcePrintStatusOnlyRule
  | forcePrintStatusAndHintRule
deriving DecidableEq, Repr

/-- The functions of the standard library on `float64`, durations and profiles. -/
structure Stdlib (F : Type) where
  atoiError : String → String
  parseFloat : String → Except String F
  lt : F → F → Bool
  zero : F
  hundred : F
  /-- `%+v` -/
  formatFloat : F → String
  parseDuration : String → Except String Int
  /-- the profile of a duration, blocked or not, compressed or not, as it is printed -/
  profile : Int → Bool → Bool → String

/-- The fields that the commands only read. -/
structure ServerContext where
  forceNamedCutOverCommand : Bool := false
  forceNamedPanicCommand : Bool := false
  /-- `ImpliedKey` and the version, if the configuration has a key -/
  applier : Option (InstanceKey × String) := none
  inspector : Option (InstanceKey × String) := none
  /-- `%+v` of the recent coordinates -/
  recentBinlogCoordinates : String := ""

/-- What the commands change, with the file system and what is sent to `PanicAbort`. -/
structure ServerState (F : Type) where
  chunkSize : Int := 1000
  dmlBatchSize : Int := 10
  niceRatio : F
  throttle : ThrottleContext := {}
  postponeCutOverFlagFile : String := ""
  userCommandedUnpostponeFlag : Int := 0
  isPostponingCutOver : Int := 0
  isCPUProfiling : Int := 0
  files : List String := []
  panicAbort : List String := []
deriving DecidableEq

/-- What becomes of a file that is opened with `O_CREATE` and closed. -/
inductive TouchOutcome where
  | done
  | openFails (err : String)
  | closeFails (err : String)
deriving DecidableEq, Repr

/-- What a command meets outside. -/
structure Outcomes where
  hook : Option String := none
  /-- `os.Stat` fails though the file exists -/
  statFails : Bool := false
  touch : TouchOutcome := .done
  startCPUProfile : Option String := none
  /-- the context is done before `PanicAbort` is received from -/
  contextDone : Bool := false

/-- What is returned, and what is written. -/
structure Reply where
  printStatusRule : PrintStatusRule
  err : Option String
  output : String := ""
deriving DecidableEq, Repr

/-! ## The text of a command -/

/-- The name and the argument, for `strings.SplitN(command, "=", 2)`. -/
def parseCommand (command : String) : String × String :=
  let tokens := command.toList.span (· ≠ '=')
  let name := String.ofList (trimSpace tokens.1)
  match tokens.2 with
  | [] => (name, "")
  | _ :: rest =>
    let arg := trimSpace rest
    (name, String.ofList ((unquote arg).getD arg))

inductive ServerCommand where
  | help
  | sup
  | status
  | cpuProfile
  | coordinates
  | applier
  | inspector
  | chunkSize
  | dmlBatchSize
  | maxLagMillis
  | replicationLagQuery
  | niceRatio
  | maxLoad
  | criticalLoad
  | throttleQuery
  | throttleHTTP
  | throttleControlReplicas
  | throttle
  | noThrottle
  | postponeCutOverFlagFile
  | unpostpone
  | panic
deriving DecidableEq, Repr

/-- The cases of the `switch`. -/
def ServerCommand.ofName : String → Option ServerCommand
  | "help" => some .help
  | "sup" => some .sup
  | "info" | "status" => some .status
  | "cpu-profile" => some .cpuProfile
  | "coordinates" => some .coordinates
  | "applier" => some .applier
  | "inspector" => some .inspector
  | "chunk-size" => some .chunkSize
  | "dml-batch-size" => some .dmlBatchSize
  | "max-lag-millis" => some .maxLagMillis
  | "replication-lag-query" => some .replicationLagQuery
  | "nice-ratio" => some .niceRatio
  | "max-load" => some .maxLoad
  | "critical-load" => some .criticalLoad
  | "throttle-query" => some .throttleQuery
  | "throttle-http" => some .throttleHTTP
  | "throttle-control-replicas" => some .throttleControlReplicas
  | "throttle" | "pause" | "suspend" => some .throttle
  | "no-throttle" | "unthrottle" | "resume" | "continue" => some .noThrottle
  | "postpone-cut-over-flag-file" => some .postponeCutOverFlagFile
  | "unpostpone" | "no-postpone" | "cut-over" => some .unpostpone
  | "panic" => some .panic
  | _ => none

def helpText : String :=
  join '\n'
    ["available commands:",
      "status                               # Print a detailed status message",
      "sup                                  # Print a short status message",
      "cpu-profile=<options>                # Print a base64-encoded runtime/pprof CPU " ++
        "profile using a duration, default: 30s. Comma-separated options 'gzip' and/or " ++
        "'block' (blocked profile) may follow the profile duration",
      "coordinates                          # Print the currently inspected coordinates",
      "applier                              # Print the hostname of the applier",
      "inspector                            # Print the hostname of the inspector",
      "chunk-size=<newsize>                 # Set a new chunk-size",
      "dml-batch-size=<newsize>             # Set a new dml-batch-size",
      "nice-ratio=<ratio>                   # Set a new nice-ratio, immediate sleep after " ++
        "each row-copy operation, float (examples: 0 is aggressive, 0.7 adds 70% runtime, " ++
        "1.0 doubles runtime, 2.0 triples runtime, ...)",
      "critical-load=<load>                 # Set a new set of max-load thresholds",
      "max-lag-millis=<max-lag>             # Set a new replication lag threshold",
      "replication-lag-query=<query>        # Set a new query that determines replication " ++
        "lag (no quotes)",
      "max-load=<load>                      # Set a new set of max-load thresholds",
      "throttle-query=<query>               # Set a new throttle-query (no quotes)",
      "throttle-http=<URL>                  # Set a new throttle URL",
      "throttle-control-replicas=<replicas> # Set a new comma delimited list of throttle " ++
        "control replicas",
      "throttle                             # Force throttling",
      "no-throttle                          # End forced throttling (other throttling may " ++
        "still apply)",
      "postpone-cut-over-flag-file=<path>   # Postpone the cut-over phase, writing a cut " ++
        "over flag file to the given path",
      "unpostpone                           # Bail out a cut-over postpone; proceed to cut-over",
      "panic                                # panic and quit without cleanup",
      "help                                 # This message",
      "- use '?' (question mark) as argument to get info rather than set. e.g. " ++
        "\"max-load=?\" will just print out current max-load.",
      ""]

def throttleHint : String :=
  "# Note: you may only throttle for as long as your binary logs are not purged"

/-! ## The setters -/

def clamp (low high n : Int) : Int :=
  let n := if n < low then low else n
  if n > high then high else n

variable {F : Type} (lib : Stdlib F) (srv : ServerContext)

namespace ServerState

variable (s : ServerState F)

def setChunkSize (chunkSize : Int) : ServerState F :=
  { s with chunkSize := clamp 10 100000 chunkSize }

def setDMLBatchSize (batchSize : Int) : ServerState F :=
  { s with dmlBatchSize := clamp 1 maxEventsBatchSize batchSize }

def setMaxLagMillisecondsThrottleThreshold (n : Int) : ServerState F :=
  { s with throttle := s.throttle.setMaxLagMillisecondsThrottleThreshold n }

def setNiceRatio (newRatio : F) : ServerState F :=
  let newRatio := if lib.lt newRatio lib.zero then lib.zero else newRatio
  { s with niceRatio := if lib.lt lib.hundred newRatio then lib.hundred else newRatio }

def setThrottleQuery (newQuery : String) : ServerState F :=
  { s with throttle := { s.throttle with throttleQuery := newQuery } }

def setThrottleHTTP (throttleHTTP : String) : ServerState F :=
  { s with throttle := { s.throttle with throttleHTTP := throttleHTTP } }

def setMaxLoad (loadMap : LoadMap) : ServerState F :=
  { s with throttle := { s.throttle with maxLoad := loadMap } }

def setCriticalLoad (loadMap : LoadMap) : ServerState F :=
  { s with throttle := { s.throttle with criticalLoad := loadMap } }

def setThrottleControlReplicaKeys (keys : List InstanceKey) : ServerState F :=
  { s with throttle := { s.throttle with throttleControlReplicaKeys := keys } }

def setThrottleCommandedByUser (n : Int) : ServerState F :=
  { s with throttle := { s.throttle with throttleCommandedByUser := n } }

end ServerState

/-- `ReadMaxLoad` and `ReadCriticalLoad`: the map is stored by `set` if all of it could be read. -/
def readLoad (s : ServerState F) (set : LoadMap → ServerState F) (list : String) :
    Option String × ServerState F :=
  match LoadMap.parseLoadMap list with
  | (_, some err) => (some err, s)
  | (loadMap, none) => (none, set loadMap)

def readMaxLoad (s : ServerState F) (maxLoadList : String) : Option String × ServerState F :=
  readLoad s s.setMaxLoad maxLoadList

def readCriticalLoad (s : ServerState F) (criticalLoadList : String) :
    Option String × ServerState F :=
  readLoad s s.setCriticalLoad criticalLoadList

def readThrottleControlReplicaKeys (s : ServerState F) (throttleControlReplicas : String) :
    Option String × ServerState F :=
  match readCommaDelimitedList [] throttleControlReplicas with
  | (_, some err) => (some err, s)
  | (keys, none) => (none, s.setThrottleControlReplicaKeys keys)

/-! ## Files -/

def fileExists (outcomes : Outcomes) (files : List String) (fileName : String) : Bool :=
  files.contains fileName && !outcomes.statFails

def touchFile (outcomes : Outcomes) (files : List String) (fileName : String) :
    Option String × List String :=
  match outcomes.touch with
  | .openFails err => (some err, files)
  | .closeFails err => (some err, files.insert fileName)
  | .done => (none, files.insert fileName)

def createPostponeCutOverFlagFile (outcomes : Outcomes) (s : ServerState F) (filePath : String) :
    Option String × ServerState F :=
  if fileExists outcomes s.files filePath then (none, s)
  else
    match touchFile outcomes s.files filePath with
    | (some err, files) =>
      (some ("failed to create postpone cut-over flag file " ++ filePath ++ ": " ++ err),
        { s with files := files })
    | (none, files) => (none, { s with files := files })

/-! ## Profiles -/

/-- The options after the duration: blocked, compressed. -/
def profileOptions : Bool × Bool → List String → Except String (Bool × Bool)
  | options, [] => .ok options
  | (blockProfile, useGzip), arg :: args =>
    if arg = "block" ∨ arg = "blocked" ∨ arg = "blocking" then profileOptions (true, useGzip) args
    else if arg = "gzip" then profileOptions (blockProfile, true) args
    else .error "unrecognized cpu profiling option"

/-- The duration and the options. -/
def profileArguments (args : String) : Except String (Int × Bool × Bool) :=
  if args = "" then .ok (30 * 1000000000, false, false)
  else
    let s := split ',' args
    (lib.parseDuration (s.headD "")).bind fun duration =>
      (profileOptions (false, false) s.tail).map fun options => (duration, options)

/-- `runCPUProfile`. `isCPUProfiling` is set while it sleeps. -/
def runCPUProfile (outcomes : Outcomes) (s : ServerState F) (args : String) :
    Except String String :=
  (profileArguments lib args).bind fun (duration, blockProfile, useGzip) =>
    if s.isCPUProfiling > 0 then .error "cpu profiling already in progress"
    else
      match outcomes.startCPUProfile with
      | some err => .error err
      | none => .ok (lib.profile duration blockProfile useGzip)

/-! ## The commands -/

section Replies

variable (s : ServerState F)

def answered (output : String) : Reply × ServerState F := (⟨.noPrintStatusRule, none, output⟩, s)

def rejected (err : String) : Reply × ServerState F := (⟨.noPrintStatusRule, some err, ""⟩, s)

def accepted (output : String) : Reply × ServerState F :=
  (⟨.forcePrintStatusAndHintRule, none, output⟩, s)

end Replies

section Commands

variable (outcomes : Outcomes) (s : ServerState F) (arg : String)

def numberCommand (value : Int) (set : Int → ServerState F) : Reply × ServerState F :=
  if arg = "?" then answered s (toString value ++ "\n")
  else
    match atoi arg.toList with
    | none => rejected s (lib.atoiError arg)
    | some n => accepted (set n) ""

def textCommand (value : String) (set : String → ServerState F) : Reply × ServerState F :=
  if arg = "?" then answered s (value ++ "\n") else accepted (set arg) (throttleHint ++ "\n")

/-- A command that sets what a reader makes of the argument, and writes `output` of what is set. -/
def readerCommand (value : String) (read : Option String × ServerState F)
    (output : ServerState F → String) : Reply × ServerState F :=
  if arg = "?" then answered s (value ++ "\n")
  else
    match read with
    | (some err, s') => rejected s' err
    | (none, s') => accepted s' (output s')

def niceRatioCommand : Reply × ServerState F :=
  if arg = "?" then answered s (lib.formatFloat s.niceRatio ++ "\n")
  else
    match lib.parseFloat arg with
    | .error err => rejected s err
    | .ok niceRatio => accepted (s.setNiceRatio lib niceRatio) ""

def cpuProfileCommand : Reply × ServerState F :=
  match runCPUProfile lib outcomes s arg with
  | .error err => rejected s err
  | .ok cpuProfile => answered s cpuProfile

def coordinatesCommand : Reply × ServerState F :=
  if arg = "?" ∨ arg = "" then answered s (srv.recentBinlogCoordinates ++ "\n")
  else rejected s "coordinates are read-only"

/-- `applier` and `inspector`. -/
def hostCommand (host : Option (InstanceKey × String)) : Reply × ServerState F :=
  answered s <| match host with
    | none => ""
    | some (key, version) => "Host: " ++ key.stringCode ++ ", Version: " ++ version ++ "\n"

/-- The courtesy protection of a command that may name the table. -/
def forTable (name : String) (obeyed : Reply × ServerState F) : Reply × ServerState F :=
  if arg ≠ "" ∧ arg ≠ s.throttle.originalTableName then
    rejected s ("user commanded '" ++ name ++ "' on " ++ arg ++ ", but migrated table is " ++
      s.throttle.originalTableName ++ "; ignoring request")
  else obeyed

def throttleCommand : Reply × ServerState F :=
  forTable s arg "throttle" (accepted (s.setThrottleCommandedByUser 1) (throttleHint ++ "\n"))

def noThrottleCommand : Reply × ServerState F :=
  forTable s arg "no-throttle" (accepted (s.setThrottleCommandedByUser 0) "")

def postponeCommand : Reply × ServerState F :=
  if arg = "" then
    rejected s "user commanded 'postpone-cut-over-flag-file' without specifying file path"
  else
    match createPostponeCutOverFlagFile outcomes s arg with
    | (some err, s) => rejected s err
    | (none, s) => accepted { s with postponeCutOverFlagFile := arg } "Postponed\n"

def unpostponeCommand : Reply × ServerState F :=
  if arg = "" ∧ srv.forceNamedCutOverCommand = true then
    rejected s
      "user commanded 'unpostpone' without specifying table name, but --force-named-cut-over is set"
  else
    forTable s arg "unpostpone" <|
      if s.isPostponingCutOver > 0 then
        accepted { s with userCommandedUnpostponeFlag := 1 } "Unpostponed\n"
      else
        answered s ("You may only invoke this when gh-ost is actively postponing migration. " ++
          "At this time it is not\n")

def panicCommand : Reply × ServerState F :=
  if arg = "" ∧ srv.forceNamedPanicCommand = true then
    rejected s
      "user commanded 'panic' without specifying table name, but --force-named-panic is set"
  else
    let err := "user commanded 'panic'. The migration will be aborted without cleanup. " ++
      "Please drop the gh-ost tables before trying again"
    forTable s arg "panic" <| rejected
      { s with
        panicAbort := if outcomes.contextDone then s.panicAbort else s.panicAbort ++ [err] } err

/-- The `switch` of `applyServerCommand`. -/
def ServerCommand.apply : ServerCommand → Reply × ServerState F
  | .help => answered s helpText
  | .sup => (⟨.forcePrintStatusOnlyRule, none, ""⟩, s)
  | .status => accepted s ""
  | .cpuProfile => cpuProfileCommand lib outcomes s arg
  | .coordinates => coordinatesCommand srv s arg
  | .applier => hostCommand s srv.applier
  | .inspector => hostCommand s srv.inspector
  | .chunkSize => numberCommand lib s arg s.chunkSize s.setChunkSize
  | .dmlBatchSize => numberCommand lib s arg s.dmlBatchSize s.setDMLBatchSize
  | .maxLagMillis =>
    numberCommand lib s arg s.throttle.maxLagMillisecondsThrottleThreshold
      s.setMaxLagMillisecondsThrottleThreshold
  | .replicationLagQuery =>
    rejected s <|
      "replication-lag-query is deprecated. gh-ost uses an internal, subsecond resolution query"
  | .niceRatio => niceRatioCommand lib s arg
  | .maxLoad =>
    readerCommand s arg (LoadMap.string s.throttle.maxLoad) (readMaxLoad s arg) fun _ => ""
  | .criticalLoad =>
    readerCommand s arg (LoadMap.string s.throttle.criticalLoad) (readCriticalLoad s arg)
      fun _ => ""
  | .throttleQuery => textCommand s arg s.throttle.throttleQuery s.setThrottleQuery
  | .throttleHTTP => textCommand s arg s.throttle.throttleHTTP s.setThrottleHTTP
  | .throttleControlReplicas =>
    readerCommand s arg (toCommaDelimitedList s.throttle.throttleControlReplicaKeys)
      (readThrottleControlReplicaKeys s arg)
      fun s => toCommaDelimitedList s.throttle.throttleControlReplicaKeys ++ "\n"
  | .throttle => throttleCommand s arg
  | .noThrottle => noThrottleCommand s arg
  | .postponeCutOverFlagFile => postponeCommand outcomes s arg
  | .unpostpone => unpostponeCommand srv s arg
  | .panic => panicCommand srv outcomes s arg

end Commands

def applyServerCommand (outcomes : Outcomes) (s : ServerState F) (command : String) :
    Reply × ServerState F :=
  let (name, arg) := parseCommand command
  match outcomes.hook with
  | some err => rejected s err
  | none =>
    match ServerCommand.ofName name with
    | some command => command.apply lib srv outcomes s arg
    | none => rejected s ("unknown command: " ++ name)

end GhOst.Logic
