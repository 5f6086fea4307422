import Mathlib.Data.List.Perm.Basic
import GhOst.Sql.Types

/-!
# The throttler (`go/logic/throttler.go`)

`shouldThrottle` looks at what several collectors have stored, each in a goroutine of its own, and
at `HibernateUntil`, which the general collector sets and a goroutine that sleeps resets. No lock is
held over more than one of these variables, so a step is one load or one store; what it learns from
outside is part of the action. Durations are in nanoseconds, and times in nanoseconds since 1970,
both of 64 bits. The collector of the replication lag is left out but for what it stores.
-/

namespace GhOst.Logic

open GhOst.Sql

/-! ## What is stored -/

inductive ThrottleReasonHint where
  | unset
  | noThrottleReasonHint
  | userCommandThrottleReasonHint
  | leavingHibernationThrottleReasonHint
deriving DecidableEq, Repr

/-- Why a general check throttles. -/
inductive GeneralReason where
  | none
  | criticalLoadError (variableName err : String)
  | leavingHibernation
  | commandedByUser
  | flagFile
  | maxLoadError (variableName err : String)
  | maxLoad (variableName : String) (value threshold : Int)
  | throttleQuery
deriving DecidableEq, Repr

def GeneralReason.text : GeneralReason → String
  | none => ""
  | criticalLoadError variableName err => variableName ++ " " ++ err
  | leavingHibernation => "leaving hibernation"
  | commandedByUser => "commanded by user"
  | flagFile => "flag-file"
  | maxLoadError variableName err => variableName ++ " " ++ err
  | maxLoad variableName value threshold =>
    "max-load " ++ variableName ++ "=" ++ toString value ++ " >= " ++ toString threshold
  | throttleQuery => "throttle-query"

structure ThrottleCheckResult where
  shouldThrottle : Bool := false
  reason : GeneralReason := .none
  reasonHint : ThrottleReasonHint := .unset
deriving DecidableEq, Repr

structure InstanceKey where
  hostname : String := ""
  port : Int := 0
deriving DecidableEq, Repr

structure ReplicationLagResult where
  key : InstanceKey := {}
  lag : Int := 0
  err : Option String := none
deriving DecidableEq, Repr

/-- The fields of `MigrationContext` that the throttler reads. A `LoadMap` is the list of its
pairs. -/
structure ThrottleContext where
  originalTableName : String := ""
  testOnReplica : Bool := false
  migrateOnReplica : Bool := false
  ignoreHTTPErrors : Bool := false
  panicFlagFile : String := ""
  throttleFlagFile : String := ""
  throttleAdditionalFlagFile : String := ""
  criticalLoadHibernateSeconds : Int := 0
  criticalLoadIntervalMilliseconds : Int := 0
  -- set by commands
  throttleHTTP : String := ""
  throttleQuery : String := ""
  maxLoad : List (String × Int) := []
  criticalLoad : List (String × Int) := []
  throttleControlReplicaKeys : List InstanceKey := []
  throttleCommandedByUser : Int := 0
  maxLagMillisecondsThrottleThreshold : Int := 1500
  -- stored by the collectors
  hibernateUntil : Int := 0
  throttleGeneralCheckResult : ThrottleCheckResult := {}
  throttleHTTPStatusCode : Int := 0
  currentLag : Int := 0
  controlReplicasLagResult : ReplicationLagResult := {}
  -- stored by the cut-over
  allEventsUpToLockProcessedInjectedFlag : Int := 0
deriving DecidableEq, Repr

/-! ## `shouldThrottle` -/

inductive ThrottleReason where
  | none
  | hibernate (hibernateUntil : Int)
  | general (reason : GeneralReason)
  | http (message : String)
  | lag (lag : Int)
  | replica (key : InstanceKey) (err : String)
  | replicaLag (key : InstanceKey) (lag : Int)
deriving DecidableEq, Repr

structure ThrottleVerdict where
  result : Bool
  reason : ThrottleReason
  reasonHint : ThrottleReasonHint := .noThrottleReasonHint
deriving DecidableEq, Repr

def notThrottled : ThrottleVerdict := { result := false, reason := .none }

def httpStatusMessages : List (Int × String) :=
  [(200, "OK"), (404, "Not found"), (417, "Expectation failed"), (429, "Too many requests"),
    (500, "Internal server error"), (-1, "Connection error")]

def httpStatusFrenoMessages : List (Int × String) :=
  [(200, "OK"), (404, "freno: unknown metric"), (417, "freno: access forbidden"),
    (429, "freno: threshold exceeded"), (500, "freno: internal error"),
    (-1, "freno: connection error")]

def throttleHttpMessage (throttleHTTP : String) (statusCode : Int) : String :=
  let statusCodesMap :=
    if contains throttleHTTP "freno" then httpStatusFrenoMessages else httpStatusMessages
  match statusCodesMap.lookup statusCode with
  | some message => message ++ " (http=" ++ toString statusCode ++ ")"
  | none => "http=" ++ toString statusCode

/-- What is left of a number in an `int64`. -/
def int64 (n : Int) : Int := n.bmod (2 ^ 64)

/-- `time.Duration(n) * time.Millisecond`. -/
def milliseconds (n : Int) : Int := int64 (n * 1000000)

/-- `time.Duration(n) * time.Second`. -/
def seconds (n : Int) : Int := int64 (n * 1000000000)

/-- The status codes that do not throttle. -/
def httpStatusPasses (statusCode : Int) : Bool := statusCode = 0 || statusCode = 200

/-- What the stored result of the control replicas makes of a check. -/
def lagVerdict (lagResult : ReplicationLagResult) (threshold : Int) : ThrottleVerdict :=
  match lagResult.err with
  | some err => { result := true, reason := .replica lagResult.key err }
  | none =>
    if lagResult.lag > milliseconds threshold then
      { result := true, reason := .replicaLag lagResult.key lagResult.lag }
    else notThrottled

def generalVerdict (generalCheckResult : ThrottleCheckResult) : ThrottleVerdict where
  result := generalCheckResult.shouldThrottle
  reason := .general generalCheckResult.reason
  reasonHint := generalCheckResult.reasonHint

def httpVerdict (throttleHTTP : String) (statusCode : Int) : ThrottleVerdict where
  result := true
  reason := .http (throttleHttpMessage throttleHTTP statusCode)

namespace ThrottleContext

variable (ctx : ThrottleContext)

/-- `checkThrottleControlReplicas`. -/
def checksControlReplicas : Bool :=
  !(ctx.allEventsUpToLockProcessedInjectedFlag > 0) || (!ctx.testOnReplica && !ctx.migrateOnReplica)

/-- `hibernateUntilTime.UnixNano()`, for a hibernation that starts at `now`. -/
def hibernatesUntil (now : Int) : Int := int64 (now + seconds ctx.criticalLoadHibernateSeconds)

/-- `shouldThrottle`, when nothing is stored while it looks. -/
def shouldThrottle : ThrottleVerdict :=
  if ctx.hibernateUntil > 0 then { result := true, reason := .hibernate ctx.hibernateUntil }
  else if ctx.throttleGeneralCheckResult.shouldThrottle then
    generalVerdict ctx.throttleGeneralCheckResult
  else if !httpStatusPasses ctx.throttleHTTPStatusCode then
    httpVerdict ctx.throttleHTTP ctx.throttleHTTPStatusCode
  else if ctx.currentLag > milliseconds ctx.maxLagMillisecondsThrottleThreshold then
    { result := true, reason := .lag ctx.currentLag }
  else if ctx.checksControlReplicas then
    lagVerdict ctx.controlReplicasLagResult ctx.maxLagMillisecondsThrottleThreshold
  else notThrottled

def setControlReplicasLagResult (lagResult : Option ReplicationLagResult) : ThrottleContext :=
  { ctx with controlReplicasLagResult := lagResult.getD {} }

def setMaxLagMillisecondsThrottleThreshold (threshold : Int) : ThrottleContext :=
  { ctx with maxLagMillisecondsThrottleThreshold := max 100 threshold }

end ThrottleContext

/-! ## The control replicas -/

/-- A replica and what `readReplicaLag` found: an error leaves the lag at zero. -/
def replicaResult (probe : InstanceKey × Except String Int) : ReplicationLagResult :=
  match probe.2 with
  | .error err => { key := probe.1, err := some err }
  | .ok lag => { key := probe.1, lag }

/-- One turn of the loop that receives the results. -/
def receiveLagResult (result : Option ReplicationLagResult) (lagResult : ReplicationLagResult) :
    Option ReplicationLagResult :=
  match result with
  | none => some lagResult
  | some r =>
    if lagResult.err.isSome then some lagResult
    else if lagResult.lag > r.lag then some lagResult
    else some r

/-- `readControlReplicasLag`: the results in the order in which they arrive, or the error of
`RegisterTLSConfig`. -/
def readControlReplicasLag (keys : List InstanceKey)
    (arrived : Except String (List (InstanceKey × Except String Int))) :
    Option ReplicationLagResult :=
  if keys = [] then none
  else
    match arrived with
    | .error err => some { err := some err }
    | .ok probes => (probes.map replicaResult).foldl receiveLagResult none

/-! ## The goroutines -/

/-- What the queries of a `LoadMap` give: an error, a variable that reaches its threshold, or
neither. -/
inductive LoadOutcome where
  | error (variableName err : String)
  | met (variableName : String) (value threshold : Int)
  | notMet
deriving DecidableEq, Repr

def LoadOutcome.possible (load : List (String × Int)) : LoadOutcome → Bool
  | error variableName _ => load.any fun p => p.1 = variableName
  | met variableName value threshold => load.contains (variableName, threshold) && threshold ≤ value
  | notMet => true

inductive GeneralAt where
  | idle
  | panicFile
  | criticalLoad
  | criticalLoadOf (load : List (String × Int))
  /-- about to store `HibernateUntil` -/
  | hibernate
  /-- in the send to `PanicAbort` -/
  | panicAbort
  | userCommand
  | flagFiles
  | maxLoad
  | maxLoadOf (load : List (String × Int))
  | throttleQuery
  | executeThrottleQuery
  /-- in `setThrottle` -/
  | store (result : ThrottleCheckResult)
deriving DecidableEq, Repr

/-- The goroutine that ends a hibernation. -/
inductive SleeperAt where
  | sleeping
  /-- the result is stored, `HibernateUntil` not yet reset -/
  | leaving
deriving DecidableEq, Repr

inductive HTTPAt where
  | idle
  | url
  | request (url : String)
deriving DecidableEq, Repr

inductive ReplicasAt where
  /-- before the test with which `collectControlReplicasLag` begins -/
  | starting
  | ended
  | idle
  | keys
  | polling (keys : List InstanceKey)
  | store (result : Option ReplicationLagResult)
deriving DecidableEq, Repr

/-- The next load of a call of `shouldThrottle`. -/
inductive CheckAt where
  | idle
  | general
  | http
  | threshold
  | lag (threshold : Int)
  | lockFlag (threshold : Int)
  | replicas (threshold : Int)
deriving DecidableEq, Repr

namespace ThrottleContext

variable (ctx : ThrottleContext)

/-- After `criticalLoadIsMet`. With an interval a goroutine is started too, which may abort. -/
def afterCriticalLoad : LoadOutcome → GeneralAt
  | .error variableName err =>
    .store { shouldThrottle := true, reason := .criticalLoadError variableName err,
             reasonHint := .noThrottleReasonHint }
  | .met _ _ _ =>
    if ctx.criticalLoadHibernateSeconds > 0 then .hibernate
    else if ctx.criticalLoadIntervalMilliseconds = 0 then .panicAbort
    else .userCommand
  | .notMet => .userCommand

def afterUserCommand : GeneralAt :=
  if ctx.throttleCommandedByUser > 0 then
    .store { shouldThrottle := true, reason := .commandedByUser,
             reasonHint := .userCommandThrottleReasonHint }
  else .flagFiles

/-- The arguments say whether the two files exist. -/
def afterFlagFiles (first second : Bool) : GeneralAt :=
  if (ctx.throttleFlagFile ≠ "" ∧ first) ∨ (ctx.throttleAdditionalFlagFile ≠ "" ∧ second) then
    .store { shouldThrottle := true, reason := .flagFile, reasonHint := .noThrottleReasonHint }
  else .maxLoad

end ThrottleContext

def afterMaxLoad : LoadOutcome → GeneralAt
  | .error variableName err =>
    .store { shouldThrottle := true, reason := .maxLoadError variableName err,
             reasonHint := .noThrottleReasonHint }
  | .met variableName value threshold =>
    .store { shouldThrottle := true, reason := .maxLoad variableName value threshold,
             reasonHint := .noThrottleReasonHint }
  | .notMet => .throttleQuery

/-- The result of a general check that found nothing. -/
def noThrottle : ThrottleCheckResult := { reasonHint := .noThrottleReasonHint }

/-- After `ExecuteThrottleQuery`, which reads the query once more and whose error is ignored. -/
def ThrottleContext.afterThrottleQuery (ctx : ThrottleContext) (result : Except String Int) :
    GeneralAt :=
  match result with
  | .ok res =>
    if ctx.throttleQuery ≠ "" ∧ res > 0 then
      .store { shouldThrottle := true, reason := .throttleQuery,
               reasonHint := .noThrottleReasonHint }
    else .store noThrottle
  | .error _ => .store noThrottle

/-! ## Sources, and what is recorded -/

inductive ThrottleSource where
  | http
  | controlReplicas
  | maxLoad
  | throttleQuery
  | userCommand
deriving DecidableEq, Repr

inductive Collector where
  | general
  | http
  | replicas
deriving DecidableEq, Repr

namespace ThrottleSource

def collector : ThrottleSource → Collector
  | http => .http
  | controlReplicas => .replicas
  | _ => .general

def all : List ThrottleSource := [http, controlReplicas, maxLoad, throttleQuery, userCommand]

theorem mem_all (source : ThrottleSource) : source ∈ all := by cases source <;> decide

def isSet (source : ThrottleSource) (ctx : ThrottleContext) : Bool :=
  match source with
  | http => ctx.throttleHTTP ≠ ""
  | controlReplicas => ctx.throttleControlReplicaKeys ≠ []
  | maxLoad => ctx.maxLoad ≠ []
  | throttleQuery => ctx.throttleQuery ≠ ""
  | userCommand => ctx.throttleCommandedByUser > 0

end ThrottleSource

def GeneralReason.source : GeneralReason → Option ThrottleSource
  | commandedByUser => some .userCommand
  | maxLoad _ _ _ => some .maxLoad
  | maxLoadError _ _ => some .maxLoad
  | throttleQuery => some .throttleQuery
  | _ => Option.none

def ThrottleReason.source : ThrottleReason → Option ThrottleSource
  | general reason => reason.source
  | http _ => some .http
  | replica _ _ => some .controlReplicas
  | replicaLag _ _ => some .controlReplicas
  | _ => Option.none

/-- From the start of a hibernation until a general check that began after its end has stored its
result. -/
inductive Period where
  | outside
  | hibernating
  | ended
deriving DecidableEq, Repr

structure Returned where
  verdict : ThrottleVerdict
  /-- it began and ended within one period -/
  within : Bool
  /-- the sources that are cleared and whose collector has run since -/
  cleared : List ThrottleSource
deriving DecidableEq, Repr

structure Throttler where
  ctx : ThrottleContext
  general : GeneralAt := .idle
  sleepers : List SleeperAt := []
  http : HTTPAt := .idle
  replicas : ReplicasAt := .starting
  check : CheckAt := .idle
  -- records
  /-- the sources that were not set or cleared since the last run of their collector began -/
  startedAfter : List ThrottleSource := []
  /-- the sources for which such a run has ended since they were last set or cleared -/
  ranAfter : List ThrottleSource := []
  period : Period := .outside
  /-- the general check began after the end of the last hibernation -/
  generalAfter : Bool := false
  /-- the running call of `shouldThrottle` began in the period that lasts -/
  within : Bool := false
  returned : List Returned := []
deriving DecidableEq, Repr

/-- Before the first collection, with any flags. -/
def initThrottler (flags : ThrottleContext) : Throttler where
  ctx :=
    { flags.setMaxLagMillisecondsThrottleThreshold flags.maxLagMillisecondsThrottleThreshold with
      hibernateUntil := 0
      throttleGeneralCheckResult := {}
      throttleHTTPStatusCode := 0
      currentLag := 0
      controlReplicasLagResult := {}
      allEventsUpToLockProcessedInjectedFlag := 0 }

/-! ## The steps -/

/-- The interactive commands that set something the throttler reads, with their argument parsed. -/
inductive ThrottleCommand where
  | throttleHTTP (url : String)
  | throttleQuery (query : String)
  | maxLoad (load : List (String × Int))
  | criticalLoad (load : List (String × Int))
  | throttleControlReplicas (keys : List InstanceKey)
  | throttle (arg : String)
  | noThrottle (arg : String)
  | maxLagMillis (n : Int)
deriving DecidableEq, Repr

inductive GeneralAction where
  | start
  | panicFile (found : Bool)
  /-- a load of a field that commands set -/
  | read
  | load (outcome : LoadOutcome)
  | hibernate (now : Int)
  | sent
  | flagFiles (first second : Bool)
  | query (result : Except String Int)
  | store
deriving DecidableEq, Repr

inductive HTTPAction where
  | start
  | readURL
  | response (statusCode : Except String Int)
deriving DecidableEq, Repr

inductive ReplicasAction where
  | start
  | tick
  | readKeys
  | arrive (arrived : Except String (List (InstanceKey × Except String Int)))
  | store
deriving DecidableEq, Repr

inductive ThrottlerAction where
  | command (c : ThrottleCommand)
  | general (a : GeneralAction)
  | wake (i : Nat)
  | http (a : HTTPAction)
  | replicas (a : ReplicasAction)
  /-- the next load of `shouldThrottle` -/
  | check
  | setCurrentLag (lag : Int)
  | setLockFlag (flag : Int)
deriving DecidableEq, Repr

namespace Throttler

variable (s : Throttler)

/-- The sources that are not set and whose collector has run since. -/
def cleared : List ThrottleSource := s.ranAfter.filter fun source => !source.isSet s.ctx

def begins (c : Collector) : Throttler :=
  { s with startedAfter := ThrottleSource.all.filter fun source =>
      source.collector = c || s.startedAfter.contains source }

def ends (c : Collector) : Throttler :=
  { s with ranAfter := ThrottleSource.all.filter fun source =>
      s.ranAfter.contains source ||
        (source.collector = c && s.startedAfter.contains source) }

/-- A command sets or clears a source. -/
def touch (source : ThrottleSource) : Throttler :=
  { s with
    startedAfter := s.startedAfter.filter (· ≠ source)
    ranAfter := s.ranAfter.filter (· ≠ source) }

/-- `applyServerCommand`. The table name is a courtesy. -/
def applyServerCommand : ThrottleCommand → Throttler
  | .throttleHTTP url => { s.touch .http with ctx := { s.ctx with throttleHTTP := url } }
  | .throttleQuery query =>
    { s.touch .throttleQuery with ctx := { s.ctx with throttleQuery := query } }
  | .maxLoad load => { s.touch .maxLoad with ctx := { s.ctx with maxLoad := load } }
  | .criticalLoad load => { s with ctx := { s.ctx with criticalLoad := load } }
  | .throttleControlReplicas keys =>
    { s.touch .controlReplicas with ctx := { s.ctx with throttleControlReplicaKeys := keys } }
  | .throttle arg =>
    if arg ≠ "" ∧ arg ≠ s.ctx.originalTableName then s
    else { s.touch .userCommand with ctx := { s.ctx with throttleCommandedByUser := 1 } }
  | .noThrottle arg =>
    if arg ≠ "" ∧ arg ≠ s.ctx.originalTableName then s
    else { s.touch .userCommand with ctx := { s.ctx with throttleCommandedByUser := 0 } }
  | .maxLagMillis n => { s with ctx := s.ctx.setMaxLagMillisecondsThrottleThreshold n }

/-- `SetThrottleGeneralCheckResult`. -/
def setGeneral (result : ThrottleCheckResult) : Throttler :=
  { s with ctx := { s.ctx with throttleGeneralCheckResult := result } }

/-- A general check that began after the hibernation ends the period when it stores. -/
def storeGeneral (result : ThrottleCheckResult) : Throttler :=
  let s : Throttler := { s.setGeneral result with general := .idle }
  let s := if s.generalAfter then { s with period := .outside, within := false } else s
  s.ends .general

/-- `collectGeneralThrottleMetrics`. -/
def generalStep (a : GeneralAction) : Option Throttler :=
  match s.general, a with
  | .idle, .start =>
    let s : Throttler := { s.begins .general with generalAfter := s.period = .ended }
    if s.ctx.hibernateUntil > 0 then some (s.ends .general)
    else some { s with general := .panicFile }
  | .panicFile, .panicFile found =>
    if s.ctx.panicFlagFile ≠ "" ∧ found then some { s with general := .panicAbort }
    else some { s with general := .criticalLoad }
  | .criticalLoad, .read => some { s with general := .criticalLoadOf s.ctx.criticalLoad }
  | .criticalLoadOf load, .load outcome =>
    if outcome.possible load then some { s with general := s.ctx.afterCriticalLoad outcome }
    else none
  | .hibernate, .hibernate now =>
    if 0 ≤ now ∧ 0 < s.ctx.criticalLoadHibernateSeconds then
      let s : Throttler := { s with
        ctx := { s.ctx with hibernateUntil := s.ctx.hibernatesUntil now }
        general := .idle
        sleepers := s.sleepers ++ [.sleeping]
        period := .hibernating }
      some (s.ends .general)
    else none
  | .panicAbort, .sent => some ({ s with general := .idle }.ends .general)
  | .userCommand, .read => some { s with general := s.ctx.afterUserCommand }
  | .flagFiles, .flagFiles first second =>
    some { s with general := s.ctx.afterFlagFiles first second }
  | .maxLoad, .read => some { s with general := .maxLoadOf s.ctx.maxLoad }
  | .maxLoadOf load, .load outcome =>
    if outcome.possible load then some { s with general := afterMaxLoad outcome } else none
  | .throttleQuery, .read =>
    if s.ctx.throttleQuery ≠ "" then some { s with general := .executeThrottleQuery }
    else some { s with general := .store noThrottle }
  | .executeThrottleQuery, .query result =>
    some { s with general := s.ctx.afterThrottleQuery result }
  | .store result, .store => some (s.storeGeneral result)
  | _, _ => none

/-- The goroutine that a hibernation has started. -/
def wake (i : Nat) : Option Throttler :=
  match s.sleepers[i]? with
  | some .sleeping =>
    some { s.setGeneral
        { shouldThrottle := true, reason := .leavingHibernation,
          reasonHint := .leavingHibernationThrottleReasonHint } with
      sleepers := s.sleepers.set i .leaving }
  | some .leaving =>
    some { s with
      ctx := { s.ctx with hibernateUntil := 0 }
      sleepers := s.sleepers.eraseIdx i
      period := .ended }
  | none => none

/-- `collectThrottleHTTPStatus`. -/
def httpStep (a : HTTPAction) : Option Throttler :=
  match s.http, a with
  | .idle, .start =>
    let s := s.begins .http
    if s.ctx.hibernateUntil > 0 then some (s.ends .http) else some { s with http := .url }
  | .url, .readURL =>
    if s.ctx.throttleHTTP = "" then some ({ s with http := .idle }.ends .http)
    else some { s with http := .request s.ctx.throttleHTTP }
  | .request _, .response statusCode =>
    let statusCode : Int :=
      match statusCode with
      | .ok statusCode => statusCode
      | .error _ => if s.ctx.ignoreHTTPErrors then s.ctx.throttleHTTPStatusCode else -1
    let s : Throttler := { s with
      ctx := { s.ctx with throttleHTTPStatusCode := statusCode }
      http := .idle }
    some (s.ends .http)
  | _, _ => none

/-- `collectControlReplicasLag`. -/
def replicasStep (a : ReplicasAction) : Option Throttler :=
  match s.replicas, a with
  | .starting, .start =>
    if s.ctx.hibernateUntil > 0 then some { s with replicas := .ended }
    else some { s with replicas := .idle }
  | .idle, .tick =>
    let s := s.begins .replicas
    -- "No need to read lag"
    if s.ctx.checksControlReplicas then some { s with replicas := .keys }
    else some (s.ends .replicas)
  | .keys, .readKeys => some { s with replicas := .polling s.ctx.throttleControlReplicaKeys }
  | .polling keys, .arrive arrived =>
    match arrived with
    | .error err =>
      some { s with replicas := .store (readControlReplicasLag keys (.error err)) }
    | .ok probes =>
      if (probes.map Prod.fst).isPerm keys then
        some { s with replicas := .store (readControlReplicasLag keys (.ok probes)) }
      else none
  | .store result, .store =>
    some ({ s with ctx := s.ctx.setControlReplicasLagResult result, replicas := .idle }.ends
      .replicas)
  | _, _ => none

def returns (verdict : ThrottleVerdict) : Throttler :=
  { s with
    check := .idle
    within := false
    returned := s.returned ++ [{ verdict, within := s.within, cleared := s.cleared }] }

/-- `shouldThrottle`, one load after the other. -/
def checkStep : Throttler :=
  match s.check with
  | .idle =>
    let s : Throttler := { s with within := s.period ≠ .outside }
    if s.ctx.hibernateUntil > 0 then
      s.returns { result := true, reason := .hibernate s.ctx.hibernateUntil }
    else { s with check := .general }
  | .general =>
    if s.ctx.throttleGeneralCheckResult.shouldThrottle then
      s.returns (generalVerdict s.ctx.throttleGeneralCheckResult)
    else { s with check := .http }
  | .http =>
    if !httpStatusPasses s.ctx.throttleHTTPStatusCode then
      s.returns (httpVerdict s.ctx.throttleHTTP s.ctx.throttleHTTPStatusCode)
    else { s with check := .threshold }
  | .threshold => { s with check := .lag s.ctx.maxLagMillisecondsThrottleThreshold }
  | .lag threshold =>
    if s.ctx.currentLag > milliseconds threshold then
      s.returns { result := true, reason := .lag s.ctx.currentLag }
    else { s with check := .lockFlag threshold }
  | .lockFlag threshold =>
    if s.ctx.checksControlReplicas then { s with check := .replicas threshold }
    else s.returns notThrottled
  | .replicas threshold => s.returns (lagVerdict s.ctx.controlReplicasLagResult threshold)

def step : ThrottlerAction → Option Throttler
  | .command c => some (s.applyServerCommand c)
  | .general a => s.generalStep a
  | .wake i => s.wake i
  | .http a => s.httpStep a
  | .replicas a => s.replicasStep a
  | .check => some s.checkStep
  | .setCurrentLag lag => some { s with ctx := { s.ctx with currentLag := lag } }
  | .setLockFlag flag =>
    some { s with ctx := { s.ctx with allEventsUpToLockProcessedInjectedFlag := flag } }

end Throttler

end GhOst.Logic
