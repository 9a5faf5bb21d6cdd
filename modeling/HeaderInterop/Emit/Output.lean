import HeaderInterop.Collection
import HeaderInterop.Emit.Constants
import HeaderInterop.Emit.Enums
import HeaderInterop.Emit.Handles
import HeaderInterop.Emit.Structs
import HeaderInterop.Emit.Commands

/-!
All output files of a collection, in order.
-/

namespace HeaderInterop.Emit

def output (config : Config) (collection : Collection) : Logged (List GeneratedFile) := do
  let mapper : TypeMapper := { settings := config.types, registry := collection.registry }
  let constants ← constants config mapper collection.constants.entries
  let enums ← enums config mapper collection.enums.entries
  let handles := handles config collection.handles.entries
  let structs ← structs config mapper collection.records.entries
  let commands ← commands config mapper collection.functions.entries
  return [constants, enums, handles, structs, commands]

end HeaderInterop.Emit
