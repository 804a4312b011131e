import MarketServer.HubStruct

/-! The configuration and how it is read from a file. The values of a file are stored
one after the other, and an exception leaves those that are stored. -/
namespace MarketServer
open Library

/-- What `load_config` catches of `nlohmann::json`. -/
inductive ConfigError where
  | parseError
  | typeError (id : Nat)
  deriving DecidableEq

variable {F : Type}

namespace Json

def isNull : Json F → Bool
  | .null => true
  | _ => false

/-- `json[key]` along a path, with the document it leaves: a null becomes an object, and
a member that is missing is created as a null. -/
def access : List Bytes → Json F → Except ConfigError (Json F × Json F)
  | [], json => .ok (json, json)
  | key :: path, .null => do
    let (value, child) ← access path .null
    return (value, .object [(key, child)])
  | key :: path, .object members => do
    let (value, child) ← access path ((OrderedMap.lookup key members).getD .null)
    return (value, .object (OrderedMap.assignSorted key child members))
  | _ :: _, _ => .error (.typeError 305)

/-- `get<string>()` -/
def getString : Json F → Except ConfigError Bytes
  | .string value => .ok value
  | _ => .error (.typeError 302)

/-- `get<int>()`. A number of another type is converted, and so is a boolean. -/
def getInt [Double F] : Json F → Except ConfigError Int32
  | .integer value => .ok value.toInt32
  | .unsigned value => .ok value.toUInt32.toInt32
  | .float value => .ok (Double.toInt value)
  | .boolean value => .ok (if value then 1 else 0)
  | _ => .error (.typeError 302)

end Json

structure Config where
  hubAddress : Bytes
  wsPort : Int32
  restPort : Int32
  deriving DecidableEq

variable (F) in
/-- The object, the local document and the lines printed so far. -/
structure Loading where
  config : Config
  js : Json F
  output : List Bytes

variable (F) in
abbrev Loader := EStateM ConfigError (Loading F)

namespace Loader

def print (line : Bytes) : Loader F Unit :=
  modify fun loading => { loading with output := loading.output ++ [line] }

/-- `LOG_ERROR` -/
def logError (message : Bytes) : Loader F Unit := print (.ofLiteral "Error, " ++ message)

/-- `js[outer][field]` and the like. -/
def read (path : List Bytes) : Loader F (Json F) := do
  let loading ← get
  match loading.js.access path with
  | .ok (value, js) =>
    set { loading with js }
    return value
  | .error error => throw error

/-- `!js[outer].is_null() && !js[outer][field].is_null()` -/
def present (outer field : Bytes) : Loader F Bool := do
  let found ← read [outer]
  if found.isNull then return false
  else
    let value ← read [outer, field]
    return !value.isNull

/-- What `load_config` does for one member of the configuration. -/
def loadField {T : Type} (convert : Json F → Except ConfigError T) (store : Config → T → Config)
    (outer field : String) (fileName : Bytes) : Loader F Unit := do
  if ← present (.ofLiteral outer) (.ofLiteral field) then
    let value ← read [.ofLiteral outer, .ofLiteral field]
    match convert value with
    | .ok converted =>
      modify fun loading => { loading with config := store loading.config converted }
    | .error error => throw error
  else
    logError (fileName ++ .ofLiteral (" does not have " ++ outer ++ "." ++ field ++ "! \n"))

end Loader

namespace Config

def setHubAddress (config : Config) (address : Bytes) : Config :=
  { config with hubAddress := address }

def setWsPort (config : Config) (port : Int32) : Config := { config with wsPort := port }

def setRestPort (config : Config) (port : Int32) : Config := { config with restPort := port }

variable [Double F]

def loadHub : Bytes → Loader F Unit := Loader.loadField Json.getString setHubAddress "hub" "addr"

def loadWsServer : Bytes → Loader F Unit :=
  Loader.loadField Json.getInt setWsPort "ws_server" "port"

def loadRestServer : Bytes → Loader F Unit :=
  Loader.loadField Json.getInt setRestPort "rest_server" "port"

/-- The `try` block. `parse` stands for `nlohmann::json::parse`, and a file that does not
open has no contents. -/
def loadBody (parse : Bytes → Option (Json F)) (fileName : Bytes) : Option Bytes → Loader F Unit
  | none => Loader.print (.ofLiteral "Failed to Open: " ++ fileName)
  | some contents => do
    match parse contents with
    | none => throw .parseError
    | some js =>
      modify fun loading => { loading with js }
      loadHub fileName
      loadWsServer fileName
      loadRestServer fileName

/-- The run of the `try` block for an object, which the constructor creates in memory
that may hold anything. -/
def load (self : Config) (parse : Bytes → Option (Json F)) (fileName : Bytes)
    (file : Option Bytes) : EStateM.Result ConfigError (Loading F) Unit :=
  (loadBody parse fileName file).run ⟨self, .null, []⟩

/-- `load_config`. The handler reports the exception and changes nothing. -/
def loadConfig (self : Config) (parse : Bytes → Option (Json F)) (fileName : Bytes)
    (file : Option Bytes) : Config :=
  match self.load parse fileName file with
  | .ok _ loading => loading.config
  | .error _ loading => loading.config

end Config

end MarketServer
