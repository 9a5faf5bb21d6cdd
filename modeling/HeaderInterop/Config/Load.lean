import HeaderInterop.Config.Decode
import HeaderInterop.Config.Default
import HeaderInterop.Config.Encode
import HeaderInterop.Config.KeyPath
import HeaderInterop.Log
import HeaderInterop.Text.Quoted
import HeaderInterop.Toml.Document

/-!
The configuration of a run in layers: the standard one, the user's file, the local file, and single
settings from the command line. A later layer goes over the earlier ones, table by table.
-/

namespace HeaderInterop.Config

/-- Why there is no configuration. -/
inductive LoadFault where
  /-- A setting from the command line without an equals sign. -/
  | malformedSetting (argument : String)
  /-- A key that is no path, a file that is not TOML, or a setting of the wrong kind. -/
  | invalid
deriving DecidableEq, Repr

def LoadFault.message : LoadFault → String
  | malformedSetting argument =>
    "invalid config override " ++ Text.quote argument ++ "; expected NAME=VALUE"
  | invalid => "failed to build configuration"

/-- A setting from the command line: a path, the first equals sign, and a text. -/
def setting? (argument : String) : Except LoadFault (KeyPath × String) :=
  match Text.splitAtFirst '=' argument.toList with
  | none => .error (.malformedSetting argument)
  | some (key, text) =>
    match KeyPath.ofText? (String.ofList key) with
    | some path => .ok (path, String.ofList text)
    | none => .error .invalid

/-- A file without the byte order mark that may stand in front; its document may have another. -/
def withoutMark (file : String) : String :=
  match file.toList with
  | '\ufeff' :: text => String.ofList text
  | _ => file

/-- The settings with those of a file over them. -/
def overlay? (file : Option String) (settings : Value) : Option Value :=
  match file with
  | none => some settings
  | some file => (Toml.parse? (withoutMark file)).map fun layer => setLayer layer settings

/-- The configuration of the standard, the two files, and the arguments in order. -/
def load (user localFile : Option String) (arguments : List String) : Except LoadFault Config := do
  let changes ← arguments.mapM setting?
  let layered := (overlay? user standard.toValue).bind (overlay? localFile)
  let settings := layered.map fun settings =>
    changes.foldl (fun settings (path, text) => path.set (.text text) settings) settings
  match settings.bind ofValue? with
  | some config => .ok config
  | none => .error .invalid

/-- Warns of each key that means nothing. -/
def reportUnknown (config : Config) : Logged Unit :=
  config.unknownKeys.forM fun key => .note .warning ("Unknown config key " ++ key)

end HeaderInterop.Config
