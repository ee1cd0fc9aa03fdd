import SchemaNaming.Config.FileTree
import SchemaNaming.Config.Json.Parse
import SchemaNaming.Config.Shape
import SchemaNaming.Config.Yaml.Typing
import SchemaNaming.Notice

/-!
# Loading a configuration

A configuration comes from a file in JSON or YAML: what is not JSON is tried as YAML. A file that
is missing, that cannot be read, or that holds something else leaves the default configuration,
which lets every handler take part; all but the first are reported. The faults of `ReadFault` are
not dealt with here and go to the caller.

What reads the texts, and what tells the shape of the data, is not part of loading. It is given as
`Readers`; those of this library are `Readers.own`.

* `Readers.parse` — the data of a text;
* `Readers.accept` — the configuration that data are taken for;
* `Readers.read` — the configuration in a file's bytes;
* `Readers.load` — the configuration that the surroundings name;
* `Config.read`, `Config.load` — the same with the readers of this library.
-/

namespace SchemaNaming.Config

/-- A configuration with what there is to report about it. -/
abbrev Loaded := RunConfig × List Notice

/-- What loading relies on. A reader gives the data of a text or refuses it as malformed, which
loading expects; any other fault of a reader goes to the caller. -/
structure Readers where
  json : List Char → Except Failure Data
  yaml : List Char → Except Failure Data
  /-- The configuration that data are, if they have the shape of one. -/
  shape? : Data → Option RunConfig

namespace Readers

/-- The readers of this library. -/
def own : Readers where
  json := Json.parse
  yaml := Yaml.parse
  shape? := Data.config?

/-- The data of a text: what it says as JSON or, if it is not JSON, as YAML. -/
def parse (r : Readers) (cs : List Char) : Except Failure Data :=
  match r.json cs with
  | .error .malformed => r.yaml cs
  | result => result

/-- The configuration that data are taken for. Null is an empty file's, and nothing to report. -/
def accept (r : Readers) : Data → Loaded
  | .null => ({}, [])
  | d =>
    match r.shape? d with
    | some config => (config, [.configLoaded])
    | none => ({}, [.configInvalid])

/-- The configuration in a file's bytes. -/
def read (r : Readers) (bytes : List UInt8) : Except ReadFault Loaded := do
  let cs ← Utf8.decode bytes
  match r.parse (unifyBreaks cs) with
  | .ok d => return r.accept d
  | .error .malformed => return ({}, [.configUnparsable])
  | .error (.fault f) => throw f

end Readers

/-- What a configuration is looked up in. -/
structure Surroundings where
  files : FileTree
  /-- The names that lead from the root to the working directory. -/
  workingDirectory : List String
  /-- The path that the environment sets. -/
  setting : Option String

/-- The path of the configuration file: the one asked for or else, unless it is blank, the one that
the environment sets. -/
def Surroundings.path? (around : Surroundings) : Option String → Option Path
  | some path => some (.ofString path)
  | none =>
    let setting := trimBlank (around.setting.getD "")
    if setting = "" then none else some (.ofString setting)

/-- The configuration that the surroundings name. -/
def Readers.load (r : Readers) (around : Surroundings) (path : Option String) :
    Except ReadFault Loaded :=
  match around.path? path with
  | none => .ok ({}, [])
  | some p =>
    match around.files.find around.workingDirectory p with
    | .missing => .ok ({}, [])
    | .tooLong => .error (.nameTooLong p.toString)
    | .denied => .error (.permissionDenied p.toString)
    | .directory | .locked => .ok ({}, [.configUnreadable])
    | .file bytes => r.read bytes

/-- The configuration in a file's bytes, read with the readers of this library. -/
def read (bytes : List UInt8) : Except ReadFault Loaded := Readers.own.read bytes

/-- The configuration that the surroundings name, read with the readers of this library. -/
def load (around : Surroundings) (path : Option String) : Except ReadFault Loaded :=
  Readers.own.load around path

end SchemaNaming.Config
