import OpenClaw.Config.Json5String
import OpenClaw.Config.Value

/-! The backend manifest and the record of the installed version.

The manifest is fetched as a JSON value and checked field by field. The installed version
is read back from `backend-version.json`, of which only `version` is checked: the other two
fields are whatever values the file has. -/
namespace OpenClaw.Desktop
open Config

/-- `a < b` on strings, by UTF-16 units. -/
def lessThan (a b : String) : Bool := decide (units a.toList < units b.toList)

/-- What the operators `&&` and `!` take for true. -/
def truthy : Value → Bool
  | .undefined | .null => false
  | .bool b => b
  | .number n => n ≠ 0
  | .string s => s ≠ ""
  | .array _ | .object _ => true

/-- A field of an object, `undefined` where there is none. -/
def field (entries : Entries) (key : String) : Value := (entries.lookup key).getD .undefined

/-! ### The manifest -/

structure BackendManifest where
  version : String
  sha256 : String
  url : String
  minAppVersion : Option String := none
  deriving Repr, DecidableEq

inductive ManifestError where
  /-- The request failed. -/
  | request
  /-- `not a JSON object`. -/
  | notObject
  /-- `unsupported schemaVersion=… (expected 3)`. -/
  | unsupportedSchema (found : Value)
  /-- `missing "…" field`. -/
  | missing (name : String)
  deriving Repr

/-- A string that is not empty. -/
def requiredText (entries : Entries) (key : String) : Except ManifestError String :=
  match field entries key with
  | .string s => if s = "" then .error (.missing key) else .ok s
  | _ => .error (.missing key)

def isSchemaVersion : Value → Bool
  | .number n => n = 3
  | _ => false

/-- The data of the response; none for a request that failed. -/
def fetchBackendManifest (data : Option Value) : Except ManifestError BackendManifest :=
  match data with
  | none => .error .request
  | some data =>
    if data.isObject then do
      let entries := toObjectRecord (some data)
      if isSchemaVersion (field entries "schemaVersion") then
        let version ← requiredText entries "version"
        let sha256 ← requiredText entries "sha256"
        let url ← requiredText entries "url"
        pure ⟨version, sha256, url, textField entries "minAppVersion"⟩
      else .error (.unsupportedSchema (field entries "schemaVersion"))
    else .error .notObject

/-! ### The installed version -/

structure LocalBackendVersion where
  version : String
  electronVersion : Value := .undefined
  sha256 : Value := .undefined
  deriving Repr

/-- The parsed file; none where it is missing or not JSON. -/
def readLocalBackendVersion (file : Option Value) : Option LocalBackendVersion :=
  match file with
  | some (.object entries) =>
    match field entries "version", field entries "openclaw" with
    | .string version, _ => some ⟨version, field entries "electronVersion", field entries "sha256"⟩
    | _, .string version => some ⟨version, field entries "electronVersion", .undefined⟩
    | _, _ => none
  | _ => none

/-- What `writeLocalBackendVersion` writes. -/
def LocalBackendVersion.toValue (installed : LocalBackendVersion) : Value :=
  .object [("version", .string installed.version), ("electronVersion", installed.electronVersion),
    ("sha256", installed.sha256)]

theorem readLocalBackendVersion_toValue (installed : LocalBackendVersion) :
    readLocalBackendVersion (some installed.toValue) = some installed := rfl

/-- The method `slice`, called for a log line, which only strings and arrays have. -/
def hasSlice : Value → Bool
  | .string _ | .array _ => true
  | _ => false

/-- `value === text`. -/
def isText (value : Value) (text : String) : Bool := value.text? = some text

/-- Whether the layer has to be downloaded; none where the call throws. -/
def needsUpdate (installed : Option LocalBackendVersion) (manifest : BackendManifest)
    (currentElectronVersion : String) : Option Bool :=
  match installed with
  | none => some true
  | some installed =>
    -- Other binaries are a matter of the installer, not of the layer.
    if truthy installed.electronVersion && !isText installed.electronVersion currentElectronVersion then some false
    else if installed.version ≠ manifest.version then some true
    else if truthy installed.sha256 && !isText installed.sha256 manifest.sha256 then
      if hasSlice installed.sha256 then some true else none
    else some false

end OpenClaw.Desktop
