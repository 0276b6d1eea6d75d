/-
What kettle calls outside of itself: git, the parsers, the hash functions and
the tools of a build.
-/
import Kettle.Host.Effects
import Kettle.Lib.JsonPretty
import Kettle.ProvenanceJson

namespace Kettle

/-- `toml::Value`; a table lists its entries in key order. -/
inductive Toml where
  | string (text : String)
  | boolean (flag : Bool)
  | array (values : List Toml)
  | table (entries : List (String × Toml))
  | other (text : String)

namespace Toml

def asStr : Toml → Option String
  | string text => some text
  | _ => none

def asArray : Toml → Option (List Toml)
  | array values => some values
  | _ => none

def asTable : Toml → Option (List (String × Toml))
  | table entries => some entries
  | _ => none

def getEntry (key : String) (entries : List (String × Toml)) : Option Toml :=
  (entries.find? fun entry => entry.1 = key).map (·.2)

def get? (value : Toml) (key : String) : Option Toml :=
  value.asTable.bind (getEntry key)

/-- A string under a key. -/
def getStr? (value : Toml) (key : String) : Option String :=
  (value.get? key).bind asStr

/-- A table under a key. -/
def getTable? (value : Toml) (key : String) : Option (List (String × Toml)) :=
  (value.get? key).bind asTable

end Toml

/-- `serde_yaml::Value`, without tags, which its accessors skip; a mapping
lists its entries as they are written. -/
inductive Yaml where
  | string (text : String)
  | mapping (entries : List (Yaml × Yaml))
  | other (text : String)

namespace Yaml

def asStr : Yaml → Option String
  | string text => some text
  | _ => none

def asMapping : Yaml → Option (List (Yaml × Yaml))
  | mapping entries => some entries
  | _ => none

def get? (value : Yaml) (key : String) : Option Yaml :=
  value.asMapping.bind fun entries =>
    (entries.find? fun entry => entry.1.asStr = some key).map (·.2)

end Yaml

structure ToolBinaryInfo where
  version : String
  sha256 : String
deriving DecidableEq, Repr

structure Host where
  /-- `git -C path args`: its trimmed output, which depends on the files. -/
  git : FileSystem → Path → List String → Except String String
  /-- A build command run in a directory: what it prints, and what it does to
  the files. -/
  command : FileSystem → Path → List String →
    Except String (Bytes × List FileEffect)
  /-- A command that changes no file: what it prints, if it could be started. -/
  query : FileSystem → Path → List String → Option (Except String Bytes)
  /-- `tar -cz` of a directory of the project. -/
  tar : FileSystem → Path → String → Except String Bytes
  /-- Where relative paths start. -/
  currentDir : Path
  /-- `toml::from_str`. -/
  parseToml : String → Except String Toml
  /-- `serde_yaml::from_slice`. -/
  parseYaml : Bytes → Except String Yaml
  sha256 : Bytes → ByteVec 32
  hex : Hex
  /-- The root of a Merkle tree over SHA-256; an empty tree has none. -/
  merkleRoot : List (ByteVec 32) → Option (ByteVec 32)
  /-- `ToolBinaryInfo::via_rustup`. -/
  viaRustup : String → Except String ToolBinaryInfo
  /-- `ToolBinaryInfo::via_which`. -/
  viaWhich : String → Except String ToolBinaryInfo
  kettleInfo : Except String ToolBinaryInfo
  /-- `serde_json`. -/
  json : JsonText
  /-- The text of serde's error about the bytes. -/
  jsonError : Bytes → String
  /-- `{:?}` of a string. -/
  debug : String → String

/-- `serde_json::from_slice` to a value. -/
def Host.parseJson (host : Host) (bytes : Bytes) : Except String Json :=
  okOr (host.jsonError bytes) (host.json.parse bytes)

/-- `hex::encode(Sha256::digest(bytes))`. -/
def Host.sha256Hex (host : Host) (bytes : Bytes) : String :=
  host.hex.encode (host.sha256 bytes).toList

/-- `serde_json::to_string_pretty`, which does not fail on these structs. -/
def Host.provenanceJson (host : Host) (provenance : Provenance) :
    Except String Bytes :=
  .ok (provenance.toJson host.json)

/-- A machine with given answers; its hash keeps the first bytes. -/
noncomputable def Host.plain
    (git : FileSystem → Path → List String → Except String String)
    (parseToml : String → Except String Toml) : Host where
  git := git
  command _ _ _ := .ok ([], [])
  query _ _ _ := none
  tar _ _ _ := .error "tar failed"
  currentDir := []
  parseToml := parseToml
  parseYaml _ := .error "malformed"
  sha256 := Bytes.zeroPadVec 32
  hex := lowerHex
  merkleRoot := List.head?
  viaRustup tool := .ok ⟨tool ++ " 1.90.0", "00"⟩
  viaWhich tool := .ok ⟨tool ++ " 2.31.0", "00"⟩
  kettleInfo := .ok ⟨"0.1.0", "00"⟩
  json := JsonPretty.text
  jsonError _ := "expected value at line 1 column 1"
  debug := id

end Kettle
