import GhOst.Infra.Regexp
import GhOst.Infra.Strings
import GhOst.Logic.Throttler
import GhOst.Mysql.Coordinates

/-!
# Instance keys (`go/mysql/instance_key.go`, `go/mysql/instance_key_map.go`)

An `InstanceKeyMap` is the list of its keys, without duplicates, in the order in which a loop meets
them.
-/

namespace GhOst.Logic

open Infra Infra.Regexp GhOst.Mysql

/-! ## The expressions -/

/-- `^(p+)$`. -/
def wholeRegexp (p : Char → Bool) : Regexp := .seq (.group 1 (plus p)) .endOfText

/-- `[0-9a-fA-F:]`. -/
def isAddressChar (c : Char) : Bool :=
  c = ':' || c.isDigit || ('a' ≤ c && c ≤ 'f') || ('A' ≤ c && c ≤ 'F')

def ipv4HostPortRegexp : Regexp :=
  .seq (.group 1 (plus (· ≠ ':'))) <| .seq (literal [':']) <|
    .seq (.group 2 (plus Char.isDigit)) .endOfText

def ipv4HostRegexp : Regexp := wholeRegexp (· ≠ ':')

def ipv6HostPortRegexp : Regexp :=
  .seq (literal ['[']) <| .seq (.group 1 (plus isAddressChar)) <| .seq (literal [']', ':']) <|
    .seq (.group 2 (upTo Char.isDigit 4)) .endOfText

def ipv6HostRegexp : Regexp := wholeRegexp isAddressChar

/-! ## Keys -/

def defaultInstancePort : Int := 3306

/-- The end of `NewRawInstanceKey`. The key next to the error is not used. -/
def instanceKeyOf (hostname port : List Char) : Except String InstanceKey :=
  if port = [] then .ok { hostname := String.ofList hostname, port := defaultInstancePort }
  else
    match atoi port with
    | some n => .ok { hostname := String.ofList hostname, port := n }
    | none => .error ("invalid port: " ++ String.ofList port)

def newRawInstanceKey (hostPort : String) : Except String InstanceKey :=
  match ipv4HostPortRegexp.findAtStart hostPort.toList with
  | some found => instanceKeyOf (found.submatch 1) (found.submatch 2)
  | none =>
    match ipv4HostRegexp.findAtStart hostPort.toList with
    | some found => instanceKeyOf (found.submatch 1) []
    | none =>
      match ipv6HostPortRegexp.findAtStart hostPort.toList with
      | some found => instanceKeyOf (found.submatch 1) (found.submatch 2)
      | none =>
        match ipv6HostRegexp.findAtStart hostPort.toList with
        | some found => instanceKeyOf (found.submatch 1) []
        | none => .error ("cannot parse address: " ++ hostPort)

def parseInstanceKey (hostPort : String) : Except String InstanceKey := newRawInstanceKey hostPort

namespace InstanceKey

/-- `StringCode`, `DisplayString` and `String`. -/
def stringCode (ik : InstanceKey) : String := ik.hostname ++ ":" ++ toString ik.port

end InstanceKey

/-! ## Maps of keys -/

def toCommaDelimitedList (ikm : List InstanceKey) : String :=
  join ',' (ikm.map InstanceKey.stringCode)

/-- The loop of `ReadCommaDelimitedList`: the map, which is incomplete when there is an error, and
the error. -/
def readTokens : List InstanceKey → List String → List InstanceKey × Option String
  | ikm, [] => (ikm, none)
  | ikm, token :: tokens =>
    match parseInstanceKey token with
    | .error err => (ikm, some err)
    | .ok key => readTokens (ikm.insert key) tokens

def readCommaDelimitedList (ikm : List InstanceKey) (list : String) :
    List InstanceKey × Option String :=
  if list = "" then (ikm, none) else readTokens ikm (split ',' list)

end GhOst.Logic
