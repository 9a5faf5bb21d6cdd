import HeaderInterop.Config.Basic

/-!
The configuration that holds where no file or argument says otherwise.
-/

namespace HeaderInterop.Config

def defaultMappings : List TypeMapping :=
  [⟨"bool", "bool"⟩, ⟨"uint8_t", "byte"⟩, ⟨"uint16_t", "ushort"⟩, ⟨"uint32_t", "uint"⟩,
   ⟨"Uint32", "uint"⟩, ⟨"uint64_t", "ulong"⟩, ⟨"int8_t", "sbyte"⟩, ⟨"int32_t", "int"⟩,
   ⟨"int16_t", "short"⟩, ⟨"int64_t", "long"⟩, ⟨"char", "byte"⟩, ⟨"size_t", "nuint"⟩,
   ⟨"intptr_t", "nint"⟩, ⟨"uintptr_t", "nuint"⟩, ⟨"Uint8", "byte"⟩, ⟨"Sint8", "sbyte"⟩,
   ⟨"Uint16", "ushort"⟩, ⟨"Sint16", "short"⟩, ⟨"Sint32", "int"⟩, ⟨"Uint64", "ulong"⟩,
   ⟨"Sint64", "long"⟩]

def defaultHeaders : List String :=
  ["SDL_error.h", "SDL_init.h", "SDL_platform.h", "SDL_clipboard.h", "SDL_cpuinfo.h",
   "SDL_loadso.h", "SDL_scancode.h", "SDL_keycode.h", "SDL_keyboard.h", "SDL_messagebox.h",
   "SDL_joystick.h", "SDL_gamepad.h", "SDL_mouse.h", "SDL_system.h", "SDL_timer.h",
   "SDL_touch.h", "SDL_log.h", "SDL_misc.h", "SDL_power.h"]

def standard : Config where
  clang := "clang"
  includes := "include"
  headerDir := "SDL3"
  headers := defaultHeaders
  rootNamespace := "SDL"
  className := "SDL"
  libraryName := "SDL3"
  publicVisibility := true
  enumUnmanagedTag := true
  collect :=
    { guardSuffixes := ["_H_"]
      excludedMacros := ["SDL_SCANCODE_TO_KEYCODE"]
      handwrittenStructs := ["VkTransformMatrixKHR"]
      opaqueSuffix := "_T"
      excludedFunctions := [] }
  types :=
    { mappings := defaultMappings
      boolLike := [⟨"VkBool32", "uint"⟩, ⟨"SDL_bool", "int"⟩]
      handlePrefixes := ["PFN"]
      flagEnums := []
      keepTypedefs := ["SDL_CameraDeviceID"] }
  constants :=
    { composite := some { name := "SDL_VERSION", typeName := "SDLVersion", extraArgs := [] }
      overrides := [] }

end HeaderInterop.Config
