import GhOst.Logic.InstanceKeys

/-!
# Looking for the master (`go/mysql/utils.go`)

A connection config is represented by its key: the configs of one discovery have the same
credentials. `RegisterTLSConfig` of the config for a valid key does not fail: it has a host name,
and the names it registers are none of the driver's own.
-/

namespace GhOst.Logic

open GhOst.Sql

namespace InstanceKey

def detachHint : String := "//"

def isDetached (ik : InstanceKey) : Bool := startsWith ik.hostname detachHint

def isValid (ik : InstanceKey) : Bool :=
  if ik.hostname = "_" then false
  else if ik.isDetached then false
  else ik.hostname ≠ "" ∧ ik.port > 0

end InstanceKey

/-- A row of `show slave status`. -/
structure ReplicaStatus where
  masterLogFile : String
  slaveIORunning : String
  slaveSQLRunning : String
  masterHost : String
  masterPort : Int
deriving DecidableEq, Repr

/-- What the instances answer to the two queries: an error, or the rows. -/
abbrev Topology := InstanceKey → Except String (List ReplicaStatus)

/-- The callback of `getMasterKeyFromSlaveStatus`, over the rows: with several, the last one counts.
-/
def masterKeyOfRows (key : InstanceKey) :
    Option InstanceKey → List ReplicaStatus → Except String (Option InstanceKey)
  | masterKey, [] => .ok masterKey
  | masterKey, row :: rows =>
    -- an empty log file indicates a master
    if row.masterLogFile = "" then masterKeyOfRows key masterKey rows
    else if row.slaveIORunning ≠ "Yes" ∨ row.slaveSQLRunning ≠ "Yes" then
      .error ("replication on " ++ key.stringCode ++ " is broken: Slave_IO_Running: " ++
        row.slaveIORunning ++ ", Slave_SQL_Running: " ++ row.slaveSQLRunning ++
        ". Please make sure replication runs before using gh-ost")
    else masterKeyOfRows key (some { hostname := row.masterHost, port := row.masterPort }) rows

def getMasterKeyFromSlaveStatus (topology : Topology) (key : InstanceKey) :
    Except String (Option InstanceKey) :=
  match topology key with
  | .error err => .error err
  | .ok rows => masterKeyOfRows key none rows

def masterMasterError (key : InstanceKey) : String :=
  "there seems to be a master-master setup at " ++ key.stringCode ++
    ". This is unsupported. Bailing out"

/-- `getMasterConnectionConfigSafe`, with the instances that were asked; `none` says that `fuel` did
not suffice. -/
def getMasterConnectionConfigSafe (topology : Topology) (allowMasterMaster : Bool) :
    (fuel : Nat) → (key : InstanceKey) → (visitedKeys : List InstanceKey) →
    Option (Except String InstanceKey × List InstanceKey)
  | 0, _, _ => none
  | fuel + 1, key, visitedKeys =>
    match getMasterKeyFromSlaveStatus topology key with
    | .error err => some (.error err, [key])
    | .ok none => some (.ok key, [key])
    | .ok (some masterKey) =>
      if !masterKey.isValid then some (.ok key, [key])
      else if masterKey ∈ visitedKeys then
        if allowMasterMaster then some (.ok key, [key])
        else some (.error (masterMasterError masterKey), [key])
      else
        (getMasterConnectionConfigSafe topology allowMasterMaster fuel masterKey
          (visitedKeys.insert masterKey)).map fun found => (found.1, key :: found.2)

end GhOst.Logic
