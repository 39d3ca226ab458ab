import Zicade.Config.Model
import Zicade.Foundation.Utf8

/-! # The config file

A config is saved as pretty-printed JSON: two spaces of indentation, one item a
line, and the optional sections left out while they are absent.
-/

namespace Zicade.Schema

open Zicade.Foundation

/-- A number that is not a natural one stands as it is written. -/
inductive Json
  | null
  | boolean (value : Bool)
  | number (value : Nat)
  | otherNumber (literal : Text)
  | string (text : Text)
  | array (items : List Json)
  | object (fields : List (Text × Json))

/-! ## Printing -/

/-- A character of a JSON string; control characters are escaped. -/
def escapeChar (c : Char) : Text :=
  if c = '"' then "\\\"".toList
  else if c = '\\' then "\\\\".toList
  else if c = '\n' then "\\n".toList
  else if c = '\r' then "\\r".toList
  else if c = '\t' then "\\t".toList
  else if c.toNat = 8 then "\\b".toList
  else if c.toNat = 12 then "\\f".toList
  else if c.toNat < 32 then
    "\\u00".toList ++ [Nat.digitChar (c.toNat / 16), Nat.digitChar (c.toNat % 16)]
  else [c]

def printString (text : Text) : Text := '"' :: (text.flatMap escapeChar ++ ['"'])

/-- A new line at an indentation of `depth` levels. -/
def newLine (depth : Nat) : Text := '\n' :: List.replicate (2 * depth) ' '

mutual

/-- A value whose lines after the first are indented by `depth` levels. -/
def Json.pretty (depth : Nat) : Json → Text
  | .null => "null".toList
  | .boolean value => (if value then "true" else "false").toList
  | .number value => (Nat.repr value).toList
  | .otherNumber literal => literal
  | .string text => printString text
  | .array [] => "[]".toList
  | .array (first :: rest) =>
      '[' :: newLine (depth + 1) ++ first.pretty (depth + 1) ++ prettyItems (depth + 1) rest ++
        newLine depth ++ [']']
  | .object [] => ['\x7b', '\x7d']
  | .object (first :: rest) =>
      '\x7b' :: newLine (depth + 1) ++ prettyField (depth + 1) first ++
        prettyFields (depth + 1) rest ++ newLine depth ++ ['\x7d']

def prettyItems (depth : Nat) : List Json → Text
  | [] => []
  | item :: rest => ',' :: newLine depth ++ item.pretty depth ++ prettyItems depth rest

def prettyField (depth : Nat) : Text × Json → Text
  | (key, value) => printString key ++ ": ".toList ++ value.pretty depth

def prettyFields (depth : Nat) : List (Text × Json) → Text
  | [] => []
  | field :: rest => ',' :: newLine depth ++ prettyField depth field ++ prettyFields depth rest

end

/-! ## The schema -/

/-- A field that is left out while it is absent. -/
def optionalField (key : String) (value : Option Json) : List (Text × Json) :=
  value.toList.map fun json => (key.toList, json)

def field (key : String) (value : Json) : Text × Json := (key.toList, value)

def word (name : String) : Json := .string name.toList

def RoutingMode.toJson : RoutingMode → Json
  | .direct => word "direct"
  | .upstream => word "upstream"
  | .pac => word "pac"

def AuthMode.toJson : AuthMode → Json
  | .none => word "none"
  | .basic => word "basic"
  | .negotiate => word "negotiate"

def SspiPackage.toJson : SspiPackage → Json
  | .ntlm => word "ntlm"
  | .negotiate => word "negotiate"

def PacSource.toJson : PacSource → Json
  | .auto => word "auto"
  | .file => word "file"
  | .url => word "url"

def FailPolicy.toJson : FailPolicy → Json
  | .error => word "error"
  | .direct => word "direct"

def AuthConfig.toJson (auth : AuthConfig) : Json :=
  .object ([field "mode" auth.mode.toJson, field "package" auth.package.toJson] ++
    optionalField "username" (auth.username.map .string) ++
    optionalField "password" (auth.password.map .string))

def UpstreamConfig.toJson (upstream : UpstreamConfig) : Json :=
  .object [field "host" (.string upstream.host), field "port" (.number upstream.port.toNat),
    field "auth" upstream.auth.toJson]

def PacConfig.toJson (pac : PacConfig) : Json :=
  .object ([field "source" pac.source.toJson] ++
    optionalField "path" (pac.path.map .string) ++ optionalField "url" (pac.url.map .string) ++
    [field "failPolicy" pac.failPolicy.toJson, field "auth" pac.auth.toJson])

def CorpNetworkConfig.toJson (corp : CorpNetworkConfig) : Json :=
  .object [field "enabled" (.boolean corp.enabled),
    field "dnsSuffixes" (.array (corp.dnsSuffixes.map .string)),
    field "pollSeconds" (.number corp.pollSeconds.toNat)]

def PoolConfig.toJson (pool : PoolConfig) : Json :=
  .object [field "enabled" (.boolean pool.enabled),
    field "minIdle" (.number pool.minIdle.toNat),
    field "idleTimeoutSeconds" (.number pool.idleTimeoutSeconds.toNat)]

def RoutingConfig.toJson (routing : RoutingConfig) : Json :=
  .object ([field "mode" routing.mode.toJson] ++
    optionalField "upstream" (routing.upstream.map UpstreamConfig.toJson) ++
    optionalField "pac" (routing.pac.map PacConfig.toJson) ++
    optionalField "corpNetwork" (routing.corpNetwork.map CorpNetworkConfig.toJson) ++
    optionalField "pool" (if routing.pool = {} then none else some routing.pool.toJson))

def Config.toJson (config : Config) : Json :=
  .object [
    field "listen" (.object [field "host" (.string config.listen.host),
      field "port" (.number config.listen.port.toNat)]),
    field "routing" config.routing.toJson,
    field "logging" (.object [field "level" (.string config.logging.level),
      field "format" (.string config.logging.format)])]

/-- `to_json_string`, which the schema gives nothing to fail on. -/
def toJsonString (config : Config) : Text := config.toJson.pretty 0

example : toJsonString {} =
    ("\x7b\n  \"listen\": \x7b\n    \"host\": \"127.0.0.1\",\n    \"port\": 3129\n  \x7d,\n" ++
      "  \"routing\": \x7b\n    \"mode\": \"direct\"\n  \x7d,\n" ++
      "  \"logging\": \x7b\n    \"level\": \"info\",\n    \"format\": \"json\"\n  \x7d\n" ++
      "\x7d").toList := by
  decide +kernel

end Zicade.Schema
