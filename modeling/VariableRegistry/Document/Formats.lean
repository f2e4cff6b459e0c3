/-
# The formats of files

Files are in JSON or in TOML as it stands here, unless other formats are named. What is proved of
table files does not rest on these two: it holds of all formats that read back what they write.
-/
import VariableRegistry.Document.Json
import VariableRegistry.Document.Toml
import VariableRegistry.TableFile

namespace VariableRegistry

/-- The two formats of this library. -/
def Formats.standard : Formats where
  json := Json.format
  toml := Toml.format

end VariableRegistry
