import TreeLens.Files
import TreeLens.Settings.Reading
import TreeLens.Toml.Reader

/-!
# Loading settings

Settings are laid over each other in order: the usual ones, those of the user,
those of a file named explicitly. The user's settings have a fixed place, and
need not be there.
-/

namespace TreeLens

/-- The variables of the environment that matter. -/
structure Environment where
  /-- Directory of settings, if it is set. -/
  configHome : Option String := none
  /-- Home directory of the user, if there is one. -/
  home : Option String := none
deriving DecidableEq, Repr

namespace Settings

/-- Where the user's settings are: below the directory of settings, or below
the usual directory for them in the user's home. -/
def userPath? (environment : Environment) : Option String :=
  let inHome := environment.home.map fun home => PathName.join home ".config"
  let base := match environment.configHome with
    | some directory => if directory.isEmpty then inHome else some directory
    | none => inHome
  base.map fun directory =>
    PathName.join (PathName.join directory "cst-explorer") "cst-explorer.toml"

/-- Read a settings file. -/
def load (files : FileSystem) (path : String) : Except Fault Settings :=
  match files.readText path with
  | .error cause => .error (.io cause)
  | .ok text =>
    match (Toml.read? text).bind (ofDatum? fileDialect) with
    | some settings => .ok settings
    | none => .error (.config (path ++ ": not a settings file"))

/-- Read the user's settings, if there is a file of them. -/
def loadUser (files : FileSystem) (environment : Environment) : Except Fault (Option Settings) :=
  match userPath? environment with
  | none => .ok none
  | some path => if files.isFile path then (load files path).map some else .ok none

/-- All settings in order, with those of an explicitly named file on top. -/
def loadAll (files : FileSystem) (environment : Environment) (explicit : Option String) :
    Except Fault Settings := do
  let user ← loadUser files environment
  let withUser := (user.getD empty).onto usual
  match explicit with
  | none => return withUser
  | some path => return (← load files path).onto withUser

end Settings

end TreeLens
