import HeaderInterop.Config.Basic
import HeaderInterop.Config.Value

/-!
The table of settings that spells a configuration.
-/

namespace HeaderInterop.Config

def textsValue (texts : List String) : Value :=
  .list (texts.map .text)

def mappingValue (mapping : TypeMapping) : Value :=
  .table [("native", .text mapping.native), ("managed", .text mapping.managed)]

def compositeValue (composite : CompositeConstant) : Value :=
  .table [("name", .text composite.name), ("type_name", .text composite.typeName),
    ("extra_args", textsValue composite.extraArgs)]

def overrideValue (override : ConstantOverride) : Value :=
  .table [("name", .text override.name), ("type", .text override.type),
    ("value", .text override.value)]

def collectValue (settings : CollectSettings) : Value :=
  .table [("header_guard_suffixes", textsValue settings.guardSuffixes),
    ("excluded_macros", textsValue settings.excludedMacros),
    ("handwritten_structs", textsValue settings.handwrittenStructs),
    ("opaque_suffix", .text settings.opaqueSuffix),
    ("excluded_functions", textsValue settings.excludedFunctions)]

def typesValue (settings : TypeSettings) : Value :=
  .table [("mappings", .list (settings.mappings.map mappingValue)),
    ("bool_like", .list (settings.boolLike.map mappingValue)),
    ("handle_prefixes", textsValue settings.handlePrefixes),
    ("flag_enums", textsValue settings.flagEnums),
    ("keep_typedefs", textsValue settings.keepTypedefs)]

def constantsValue (settings : ConstantSettings) : Value :=
  .table [("composite", settings.composite.elim .nil compositeValue),
    ("overrides", .list (settings.overrides.map overrideValue))]

def toValue (config : Config) : Value :=
  .table [("clang", .text config.clang), ("includes", .text config.includes),
    ("header_prefix", .text config.headerDir), ("headers", textsValue config.headers),
    ("namespace", .text config.rootNamespace), ("class_name", .text config.className),
    ("library_name", .text config.libraryName),
    ("public_visibility", .bool config.publicVisibility),
    ("enum_unmanaged_tag", .bool config.enumUnmanagedTag),
    ("collect", collectValue config.collect), ("types", typesValue config.types),
    ("constants", constantsValue config.constants)]

end HeaderInterop.Config
