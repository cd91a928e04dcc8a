import LiveDataflow.Config.Document

/-!
# Where a configuration is found

A directory may hold a configuration file.  Loading tells why there is no configuration to be had;
for a plan that needs one in any case, the defaults take its place.
-/

set_option autoImplicit false

namespace LiveDataflow.Config

/-- What is found where a configuration file should be. -/
inductive Source where
  | missing
  | directory
  | file (bytes : ByteArray)

/-- The name of the file in a directory. -/
def fileName : String := "streamplan.yaml"

/-- Loads the configuration of a directory.  A failure to read the text tells the path, a failure to
get at it does not. -/
def load (directory : String) : Source → Except Cause Config
  | .missing => .error .fileMissing
  | .directory => .error .fileIsDirectory
  | .file bytes =>
    match String.fromUTF8? bytes with
    | none => .error .fileNotText
    | some text => (ofYaml text).mapError (.inFile (directory ++ "/" ++ fileName))

/-- Loads the configuration of a directory, or the defaults if that cannot be done. -/
def loadOrDefault (directory : String) (source : Source) : Config :=
  match load directory source with
  | .ok c => c
  | .error _ => .default

end LiveDataflow.Config
