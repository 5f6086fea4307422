import GhOst.Infra.Steps

/-!
# Postponing the cut-over (`go/logic/migrator.go`, `go/logic/server.go`)

`cutOver` first waits in a loop while the flag file exists, and is called again when it fails.
Commands come in at any time, each in a goroutine of its own. No lock is held, so a step is one load
or one store: of `PostponeCutOverFlagFile`, of `UserCommandedUnpostponeFlag`, of
`IsPostponingCutOver`, or of the file system, which is the list of the paths that exist.
-/

namespace GhOst.Logic

inductive PostponeAt where
  | idle
  | checkAbort
  | heartbeatLag
  /-- `PostponeCutOverFlagFile == ""` -/
  | flagFileSet
  | loadUnpostpone
  | clearUnpostpone
  | readFlagFile
  | fileExists (fileName : String)
  | loadPostponing
  | onBeginPostponed
  | setPostponing
  | sleep
  /-- the loop has returned without an error, and `IsPostponingCutOver` is to be cleared -/
  | ended
  /-- `checkAbort` has failed, as it does in every later attempt -/
  | aborted
deriving DecidableEq, Repr

/-- The loop of the latest attempt has ended. -/
def PostponeAt.released : PostponeAt → Bool
  | .idle | .ended => true
  | _ => false

/-- The end of a loop that lets the cut-over proceed. -/
structure LoopEnd where
  attempt : Nat
  fileExists : Bool
  /-- an `unpostpone` command was issued after the attempt began postponing -/
  issued : Bool
deriving DecidableEq, Repr

structure Postponement where
  postponeCutOverFlagFile : String
  files : List String
  userCommandedUnpostponeFlag : Int := 0
  isPostponingCutOver : Int := 0
  place : PostponeAt := .idle
  /-- the `unpostpone` commands that are to store their flag, with the attempt in which they were
  issued -/
  unpostponing : List Nat := []
  /-- the `postpone-cut-over-flag-file` commands that are to store the path of their file -/
  postponing : List String := []
  -- what has happened
  attempt : Nat := 0
  /-- the attempt has begun postponing -/
  began : Bool := false
  /-- an `unpostpone` command was issued after that -/
  issued : Bool := false
  ends : List LoopEnd := []
deriving DecidableEq, Repr

inductive PostponeAction where
  /-- an attempt begins -/
  | cutOver
  | checkAbort (aborted : Bool)
  | heartbeatLag (tooHigh : Bool)
  | onBeginPostponed (err : Bool)
  /-- the next load or store of the loop -/
  | loop
  | unpostpone
  | storeUnpostpone (i : Nat)
  | postpone (path : String)
  | storeFlagFile (i : Nat)
  | createFile (path : String)
  | removeFile (path : String)
deriving DecidableEq, Repr

namespace Postponement

variable (s : Postponement)

def flagFileExists : Bool :=
  s.postponeCutOverFlagFile ≠ "" && s.files.contains s.postponeCutOverFlagFile

def returns : Postponement :=
  { s with
    place := .ended
    ends := s.ends ++
      [{ attempt := s.attempt, fileExists := s.flagFileExists, issued := s.issued }] }

/-- The loads and stores of the loop that depend on nothing else. -/
def loopStep : PostponeAt → Option Postponement
  | .flagFileSet =>
    if s.postponeCutOverFlagFile = "" then some s.returns
    else some { s with place := .loadUnpostpone }
  | .loadUnpostpone =>
    if s.userCommandedUnpostponeFlag > 0 then some { s with place := .clearUnpostpone }
    else some { s with place := .readFlagFile }
  | .clearUnpostpone => some { s.returns with userCommandedUnpostponeFlag := 0 }
  | .readFlagFile => some { s with place := .fileExists s.postponeCutOverFlagFile }
  | .fileExists fileName =>
    if fileName ∈ s.files then some { s with place := .loadPostponing } else some s.returns
  | .loadPostponing =>
    if s.isPostponingCutOver = 0 then some { s with place := .onBeginPostponed }
    else some { s with place := .setPostponing }
  | .setPostponing => some { s with isPostponingCutOver := 1, began := true, place := .sleep }
  | .sleep => some { s with place := .checkAbort }
  | .ended => some { s with isPostponingCutOver := 0, place := .idle }
  | _ => none

def step : PostponeAction → Option Postponement
  | .cutOver =>
    if s.place = .idle then
      some { s with
        place := .checkAbort, attempt := s.attempt + 1, began := false, issued := false }
    else none
  | .checkAbort aborted =>
    if s.place = .checkAbort then
      some { s with place := if aborted then .aborted else .heartbeatLag }
    else none
  | .heartbeatLag tooHigh =>
    if s.place = .heartbeatLag then
      some { s with place := if tooHigh then .sleep else .flagFileSet }
    else none
  | .onBeginPostponed err =>
    -- with an error the attempt fails, and the next one begins anew
    if s.place = .onBeginPostponed then
      some { s with place := if err then .idle else .setPostponing }
    else none
  | .loop => s.loopStep s.place
  | .unpostpone =>
    if s.isPostponingCutOver > 0 then
      some { s with unpostponing := s.unpostponing ++ [s.attempt], issued := s.issued || s.began }
    else some s
  | .storeUnpostpone i =>
    if i < s.unpostponing.length then
      some { s with unpostponing := s.unpostponing.eraseIdx i, userCommandedUnpostponeFlag := 1 }
    else none
  | .postpone path =>
    if path ≠ "" then
      some { s with files := s.files.insert path, postponing := s.postponing ++ [path] }
    else some s
  | .storeFlagFile i =>
    (s.postponing[i]?).map fun path =>
      { s with postponing := s.postponing.eraseIdx i, postponeCutOverFlagFile := path }
  | .createFile path => some { s with files := s.files.insert path }
  | .removeFile path => some { s with files := s.files.filter (· ≠ path) }

end Postponement

end GhOst.Logic
