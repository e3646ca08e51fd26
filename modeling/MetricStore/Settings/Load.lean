import MetricStore.Config
import MetricStore.Settings.Files
import MetricStore.Settings.Layers
import MetricStore.Text.Utf8
import MetricStore.Toml.Document

/-!
Loading: a configuration from defaults, a file and the environment, each over the one before.

`load` reads the file, if one is asked for, puts the variables of the environment over it, and
takes capacity and limit from the result.  Both are read before the capacity is checked, and what
is overridden is not read at all.
-/

namespace MetricStore.Settings

/-- Why settings do not make a configuration. -/
inductive Fault where
  /-- There is nothing at the path. -/
  | notFound (path : String)
  /-- There is no document at the path. -/
  | unreadable (path : String)
  /-- The document at the path is this text and no table. -/
  | noTable (content path : String)
  /-- A setting is no natural number. -/
  | unfit (key : String) (unfit : Unfit) (origin : Option Origin)
  /-- The configuration is refused. -/
  | refused (failure : Failure)
deriving DecidableEq

/-- A fault as a failure of the store. -/
def Fault.toFailure : Fault → Failure
  | notFound path => .settings ("config file not found: " ++ path)
  | unreadable path => .settings ("cannot read " ++ path)
  | noTable content path =>
    .settings s!"invalid type: {Unfit.found (.text content)}, expected a map in {path} in {path}"
  | unfit key u origin =>
    let place := (origin.map fun o => " in " ++ o.name).getD ""
    .settings s!"invalid type: {u.found}, expected {u.wanted} for key `{key}`{place}"
  | refused failure => failure

/-- The natural number that a setting stands for. -/
def Setting.toNat (key : String) : Setting → Except Fault Nat
  | scalar value origin => value.toNat.mapError fun u => .unfit key u (some origin)
  | list origin => .error (.unfit key .list origin)
  | table => .error (.unfit key .table none)

/-- The natural number under a key, if it is set. -/
def Layer.nat? (layer : Layer) (key : String) : Except Fault (Option Nat) :=
  match layer.get? key with
  | none => .ok none
  | some setting => some <$> setting.toNat key

/-- What a document gives that was found at a path. -/
def sourceOf (path : String) : Toml.Value → Except Fault (List (String × Given))
  | .table entries => .ok (ofTable (.file path) entries)
  | .moment content => .error (.noTable content path)
  | _ => .error (.unreadable path)

/-- The document at a path. -/
def readFile (t : FileTree) (path : String) : Except Fault (List (String × Given)) :=
  if (t.resolve path).isNone then .error (.notFound path)
  else
    let document := do
      let found ← t.locate path
      let text ← (Text.Utf8.decode found.content).toOption
      let value ← Toml.read (String.ofList text)
      return (found.path, value)
    match document with
    | some (place, value) => sourceOf place value
    | none => .error (.unreadable path)

/-- The partial configuration that a layer sets. -/
def Layer.toPartial (layer : Layer) : Except Fault PartialConfig := do
  let capacity ← layer.nat? "capacity"
  let maxSeries ← layer.nat? "max_series"
  return ⟨capacity, maxSeries⟩

/-- The configuration of a file, given by what it holds, and the environment over the default. -/
def configure (file environment : List (String × Given)) : Except Fault Config := do
  let layer := (Layer.putAll [] file).putAll environment
  let partialConfig ← layer.toPartial
  (Config.overlay {} partialConfig).mapError .refused

/-- The configuration of the file at a path, if one is asked for, and the environment. -/
def load (t : FileTree) (path : Option String) (environment : List (String × String)) :
    Except Fault Config := do
  let file ← match path with
    | none => pure []
    | some path => readFile t path
  configure file (ofVariables environment)

end MetricStore.Settings
