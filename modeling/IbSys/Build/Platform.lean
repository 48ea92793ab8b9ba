/-
# IbSys.Build.Platform -- target platform normalization

`xmake/modules/ib/platform.lua`. A configured target has a plat, an arch and, from one of two places, a
target triple. `detect` makes a platform record of them: the OS family, the object format, the linker
dialect and the decoration of C symbols. `get` returns the record and keeps it with the target, where
the field `cached` says that a record kept there is the one `detect` would make.
-/
import IbSys.Lib.Keywords

namespace IbSys.Build

open Keywords

/-! ## Strings -/

/-- A Lua string, letter by letter. -/
abbrev LuaString := List Char

instance luaStringOfString : Coe String LuaString := ⟨String.toList⟩

/-- `string.lower`: ASCII letters only. -/
def lower (s : LuaString) : LuaString := s.map Char.toLower

/-! ## Tables -/

/-- The normalized OS names. -/
inductive OsName where
  | android | wasm | freebsd | openbsd | netbsd | dragonfly | solaris | macos | iphoneos | watchos
  | appletvos | linux | mingw | windows | uefi | baremetal
  deriving DecidableEq

/-- The plats the project allows (`set_allowedplats`), and the others `platform.lua` names. -/
inductive Plat where
  | windows | mingw | linux | cross | wasm
  | generic | macosx | iphoneos | appletvos | watchos | android | bsd | msys
  deriving DecidableEq

/-- `OSMAP`. The order matters: an Android triple is not a Linux one. -/
def osmap : List (LuaString × OsName) :=
  [("android", .android), ("emscripten", .wasm), ("wasi", .wasm), ("wasm", .wasm),
    ("freebsd", .freebsd), ("openbsd", .openbsd), ("netbsd", .netbsd), ("dragonfly", .dragonfly),
    ("solaris", .solaris), ("darwin", .macos), ("macos", .macos), ("ios", .iphoneos),
    ("watchos", .watchos), ("tvos", .appletvos), ("apple", .macos), ("linux", .linux),
    ("mingw", .mingw), ("cygwin", .mingw), ("windows", .windows), ("uefi", .uefi),
    ("none", .baremetal), ("elf", .baremetal)]

/-- `PLAT_ALIAS[plat] or plat`. `cross` and `generic` name no system. -/
def Plat.os : Plat → Option OsName
  | .macosx => some .macos
  | .iphoneos => some .iphoneos
  | .appletvos => some .appletvos
  | .watchos => some .watchos
  | .android => some .android
  | .bsd => some .freebsd
  | .msys => some .mingw
  | .windows => some .windows
  | .mingw => some .mingw
  | .linux => some .linux
  | .wasm => some .wasm
  | .cross | .generic => none

/-- `ARCH_ALIAS`: triple arch token to xmake arch. -/
def archAlias : List (LuaString × LuaString) :=
  [("aarch64", "arm64"), ("arm64", "arm64"), ("amd64", "x64"), ("x86_64", "x64"), ("i386", "x86"),
    ("i486", "x86"), ("i586", "x86"), ("i686", "x86"), ("arm", "arm"), ("armv7", "arm"),
    ("riscv64", "riscv64"), ("wasm32", "wasm32")]

/-! ## The triple -/

def osFromTriple (tri : LuaString) : OsName :=
  (firstMatch osmap (lower tri)).getD .baremetal

def archFromTriple (tri : LuaString) : LuaString :=
  let arch := lower ((fields '-' tri).head?.getD [])
  (archAlias.lookup arch).getD arch

/-- The tools that compile or link C++. -/
inductive Tool where
  | clang | clangxx | clang_cl | gcc | gxx | cl | link
  deriving DecidableEq

/-- What `target:values` returns. -/
inductive Value where
  | nil
  | string (s : LuaString)
  | table (l : List LuaString)

/-- What the configuration fixes for a target: its plat and arch, its `ib.triple` value, the `--cross`
option, the C++ compiler, and whether the host is macOS. -/
structure Conf where
  plat : Plat
  arch : LuaString
  ibTriple : Value
  cross : Option LuaString
  cxx : Tool
  hostMacosx : Bool

/-- The value of the target first, then the option; an empty string counts as none. -/
def triple (c : Conf) : Option LuaString :=
  let value :=
    match c.ibTriple with
    | .nil => none
    | .string s => some s
    | .table l => l.head?
  match value with
  | some (ch :: s) => some (ch :: s)
  | _ =>
      match c.cross with
      | some (ch :: s) => some (ch :: s)
      | _ => none

/-! ## The record -/

inductive Binfmt where
  | elf | pe | macho | wasm
  deriving DecidableEq

inductive Ldstyle where
  | gnu | msvc | ld64 | wasm
  deriving DecidableEq

structure Platform where
  plat : Plat
  arch : LuaString
  triple : Option LuaString
  os : OsName
  binfmt : Binfmt
  ldstyle : Ldstyle
  symprefix : LuaString

/-- The object format that follows from the OS. -/
def binfmtOf (os : OsName) : Binfmt :=
  if os = .windows ∨ os = .mingw then .pe
  else if os = .macos ∨ os = .iphoneos ∨ os = .watchos ∨ os = .appletvos then .macho
  else if os = .wasm then .wasm
  else .elf

/-- The linker dialect that follows from the OS and the object format. -/
def ldstyleOf (os : OsName) (binfmt : Binfmt) : Ldstyle :=
  if os = .windows then .msvc
  else if binfmt = .macho then .ld64
  else if binfmt = .wasm then .wasm
  else .gnu

/-- The prefix of C symbols that follows from the object format and the arch. -/
def symprefixOf (binfmt : Binfmt) (arch : LuaString) : LuaString :=
  if binfmt = .macho then "_"
  else if binfmt = .pe ∧ (arch = "x86" ∨ arch = "i386" ∨ arch = "i686") then "_"
  else ""

def detect (c : Conf) : Platform :=
  let tri := triple c
  -- only these two plats are driven by the triple
  let driven := c.plat = .cross ∨ c.plat = .generic
  let os :=
    if driven then
      match tri with
      | some t => osFromTriple t
      | none => .baremetal
    else c.plat.os.getD .baremetal
  let arch :=
    if driven then
      match tri with
      | some t => archFromTriple t
      | none => c.arch
    else c.arch
  let binfmt := binfmtOf os
  { plat := c.plat
    arch := arch
    triple := tri
    os := os
    binfmt := binfmt
    ldstyle := ldstyleOf os binfmt
    symprefix := symprefixOf binfmt arch }

@[simp] theorem detect_triple (c : Conf) : (detect c).triple = triple c := rfl

/-! ## The target -/

/-- A flag, and the tools it is for when it is not for all of them. -/
structure Flag where
  flag : LuaString
  tools : Option (List Tool) := none
  deriving DecidableEq

/-- A target as the rules of the build see it: what is fixed, the record kept under `ib.platform`, and
what rules have added. -/
structure BuildTarget where
  conf : Conf
  data : Option Platform
  cached : ∀ info ∈ data, info = detect conf
  cxxflags : List Flag
  ldflags : List Flag
  links : List LuaString
  extension : Option LuaString

/-- A target that no rule has seen. -/
def BuildTarget.fresh (c : Conf) : BuildTarget where
  conf := c
  data := none
  cached _ h := nomatch h
  cxxflags := []
  ldflags := []
  links := []
  extension := none

@[simp] theorem BuildTarget.fresh_conf (c : Conf) : (BuildTarget.fresh c).conf = c := rfl

@[simp] theorem BuildTarget.fresh_cxxflags (c : Conf) : (BuildTarget.fresh c).cxxflags = [] := rfl

/-- The record kept with the target, or a new one that is kept from now on. -/
def get (t : BuildTarget) : Platform × BuildTarget :=
  match t.data with
  | some info => (info, t)
  | none =>
      let info := detect t.conf
      (info, { t with data := some info, cached := fun _ h => (Option.some.inj h).symm })

/-- Kept or new, the record is the one `detect` makes. -/
@[simp] theorem get_fst (t : BuildTarget) : (get t).1 = detect t.conf := by
  unfold get
  split
  · rename_i info h
    exact t.cached info h
  · rfl

end IbSys.Build
