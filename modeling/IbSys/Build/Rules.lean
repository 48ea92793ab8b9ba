/-
# IbSys.Build.Rules -- the rules of `xmake.lua`

`ib.warnings`, `ib.clang.target`, `ib.freestanding` and `ib.entrypoint`, which xmake runs in whatever order.
The second and the last read the platform record of the target, and whichever comes first keeps it there. A
rule adds what depends on the configuration alone (`Rule.run_spec`), so what a target ends up with is what
its rules add, one after the other (`configure_spec`). A triple reaches clang whatever the plat is
(`targetFlag_mem_iff`), and the record describes it exactly when the plat is one that the triple drives, or
when plat and arch happen to agree with it (`describes_triple_iff`).
-/
import IbSys.Build.Platform

namespace IbSys.Build

/-! ## Predicates of the platform -/

/-- `is_os(target, ...)`. -/
def isOs (t : BuildTarget) (names : List OsName) : Bool := names.any fun name => (get t).1.os == name

def isPe (t : BuildTarget) : Bool := isOs t [.windows, .mingw]

theorem binfmtOf_pe_iff : ∀ os : OsName, binfmtOf os = .pe ↔ os = .windows ∨ os = .mingw := by
  intro os
  cases os <;> decide

/-- `is_pe` asks for the OS, and this decides the format. -/
theorem isPe_iff (t : BuildTarget) : isPe t = true ↔ (detect t.conf).binfmt = .pe := by
  have hpe := binfmtOf_pe_iff (detect t.conf).os
  rw [show (detect t.conf).binfmt = binfmtOf (detect t.conf).os from rfl, hpe]
  simp [isPe, isOs]

/-! ## Flags -/

namespace BuildTarget

def addCxxflags (t : BuildTarget) (flags : List Flag) : BuildTarget :=
  { t with cxxflags := t.cxxflags ++ flags }

def addLdflags (t : BuildTarget) (flags : List Flag) : BuildTarget :=
  { t with ldflags := t.ldflags ++ flags }

section

variable (t : BuildTarget) (flags : List Flag)

@[simp] theorem addCxxflags_conf : (t.addCxxflags flags).conf = t.conf := rfl

@[simp] theorem addCxxflags_cxxflags : (t.addCxxflags flags).cxxflags = t.cxxflags ++ flags := rfl

@[simp] theorem addCxxflags_ldflags : (t.addCxxflags flags).ldflags = t.ldflags := rfl

@[simp] theorem addCxxflags_links : (t.addCxxflags flags).links = t.links := rfl

@[simp] theorem addCxxflags_extension : (t.addCxxflags flags).extension = t.extension := rfl

@[simp] theorem addLdflags_conf : (t.addLdflags flags).conf = t.conf := rfl

@[simp] theorem addLdflags_cxxflags : (t.addLdflags flags).cxxflags = t.cxxflags := rfl

@[simp] theorem addLdflags_ldflags : (t.addLdflags flags).ldflags = t.ldflags ++ flags := rfl

@[simp] theorem addLdflags_links : (t.addLdflags flags).links = t.links := rfl

@[simp] theorem addLdflags_extension : (t.addLdflags flags).extension = t.extension := rfl

end

end BuildTarget

/-- Reading the record changes nothing that a rule adds to. -/
theorem get_snd (t : BuildTarget) : ∃ data cached, (get t).2 = { t with data, cached } := by
  unfold get
  split
  · exact ⟨t.data, t.cached, rfl⟩
  · exact ⟨some (detect t.conf), fun _ h => (Option.some.inj h).symm, rfl⟩

section

variable (t : BuildTarget)

@[simp] theorem get_snd_conf : (get t).2.conf = t.conf := by
  obtain ⟨data, cached, h⟩ := get_snd t
  rw [h]

@[simp] theorem get_snd_cxxflags : (get t).2.cxxflags = t.cxxflags := by
  obtain ⟨data, cached, h⟩ := get_snd t
  rw [h]

@[simp] theorem get_snd_ldflags : (get t).2.ldflags = t.ldflags := by
  obtain ⟨data, cached, h⟩ := get_snd t
  rw [h]

@[simp] theorem get_snd_links : (get t).2.links = t.links := by
  obtain ⟨data, cached, h⟩ := get_snd t
  rw [h]

@[simp] theorem get_snd_extension : (get t).2.extension = t.extension := by
  obtain ⟨data, cached, h⟩ := get_snd t
  rw [h]

end

/-! ## `ib.warnings` -/

/-- The warnings that each compiler is asked for. -/
def warningFlags : Tool → List Flag
  | .clang | .clangxx | .clang_cl =>
      [⟨"-Weverything", none⟩, ⟨"-Wno-c++98-compat-pedantic", none⟩,
        ⟨"-Wno-missing-prototypes", none⟩]
  | .gcc | .gxx =>
      [⟨"-Wall", none⟩, ⟨"-Wextra", none⟩, ⟨"-Wpedantic", none⟩, ⟨"-Wshadow", none⟩,
        ⟨"-Wconversion", none⟩, ⟨"-Wsign-conversion", none⟩, ⟨"-Wcast-align", none⟩,
        ⟨"-Wunused", none⟩, ⟨"-Wnull-dereference", none⟩, ⟨"-Wdouble-promotion", none⟩,
        ⟨"-Wformat=2", none⟩, ⟨"-Wimplicit-fallthrough", none⟩, ⟨"-Wduplicated-cond", none⟩,
        ⟨"-Wduplicated-branches", none⟩, ⟨"-Wlogical-op", none⟩]
  -- the second one is the warning about unknown attributes
  | .cl => [⟨"/Wall", none⟩, ⟨"/wd5030", none⟩]
  | .link => []

def warnings (t : BuildTarget) : BuildTarget := t.addCxxflags (warningFlags t.conf.cxx)

/-! ## `ib.clang.target` -/

/-- The compile flag that names a triple. -/
def targetFlag (tri : LuaString) : Flag where
  flag := ("--target=" : LuaString) ++ tri

theorem targetFlag_inj {tri tri' : LuaString} : targetFlag tri = targetFlag tri' ↔ tri = tri' := by
  unfold targetFlag
  rw [Flag.mk.injEq, List.append_cancel_left_eq]
  simp

def fcxxModules : Flag where
  flag := "-fcxx-modules"

def clangTarget (t : BuildTarget) : BuildTarget :=
  if t.conf.cxx ≠ .clang ∧ t.conf.cxx ≠ .clangxx then t
  else
    let r := get t
    let pi := r.1
    let t := r.2
    let t :=
      match pi.triple with
      | some tri => (t.addCxxflags [targetFlag tri]).addLdflags [targetFlag tri]
      | none => t
    -- apple-clang needs this to enable C++20 modules
    let t := if pi.os = .macos ∧ t.conf.hostMacosx = true then t.addCxxflags [fcxxModules] else t
    t.addLdflags [{ flag := "-v" }]

/-! ## `ib.freestanding` -/

def freestandingFlags : List Flag :=
  [⟨"-ffreestanding", some [.clang, .gcc, .clangxx, .gxx, .clang_cl]⟩,
    ⟨"-fno-builtin", some [.clang, .gcc, .clangxx, .gxx, .clang_cl]⟩,
    ⟨"-nostdinc", some [.clang, .clangxx]⟩, ⟨"-nostdinc", some [.gcc, .gxx]⟩,
    ⟨"/X", some [.cl, .clang_cl]⟩]

def freestanding (t : BuildTarget) : BuildTarget := t.addCxxflags freestandingFlags

/-! ## `ib.entrypoint` -/

/-- The mangled name of a symbol, which the linker's `-e` takes. -/
def entrySymbol (t : BuildTarget) (name : LuaString) : LuaString :=
  Platform.symprefix (get t).1 ++ name

/-- The branches of `ib.entrypoint`. -/
inductive LinkBranch where
  | msvc | mingw | macho | wasm | elf
  deriving DecidableEq

def linkBranch (pi : Platform) : LinkBranch :=
  if pi.os = .windows then .msvc
  else if pi.os = .mingw then .mingw
  else if pi.binfmt = .macho then .macho
  else if pi.binfmt = .wasm then .wasm
  else .elf

/-- The drivers that take GNU options. -/
def gnuTools : List Tool := [.gcc, .gxx, .clang, .clangxx]

def LinkBranch.ldflags (entry : LuaString) : LinkBranch → List Flag
  | .msvc =>
      [⟨"/NODEFAULTLIB", some [.link]⟩, ⟨"/SUBSYSTEM:CONSOLE", some [.link]⟩,
        ⟨"/ENTRY:ib_start", some [.link]⟩, ⟨"-Wl,/NODEFAULTLIB", some [.clang]⟩,
        ⟨"-Wl,/SUBSYSTEM:CONSOLE", some [.clang]⟩, ⟨"-Wl,/ENTRY:ib_start", some [.clang]⟩]
  | .mingw =>
      [⟨"-nostartfiles", some gnuTools⟩, ⟨("-Wl,-e," : LuaString) ++ entry, some gnuTools⟩,
        ⟨"-Wl,--subsystem,console", some gnuTools⟩]
  | .macho =>
      [⟨"-nostdlib", some [.clang, .clangxx]⟩, ⟨"-static", some [.clang, .clangxx]⟩,
        ⟨("-Wl,-e," : LuaString) ++ entry, some [.clang, .clangxx]⟩]
  | .wasm => [⟨"-Wl,--no-entry", some gnuTools⟩]
  | .elf =>
      [⟨"-nostartfiles", some gnuTools⟩, ⟨"-nostdlib", some gnuTools⟩, ⟨"-static", some gnuTools⟩,
        ⟨"-Wl,-no-pie", some gnuTools⟩, ⟨("-Wl,-e," : LuaString) ++ entry, some gnuTools⟩]

def entrypoint (t : BuildTarget) : BuildTarget :=
  let r := get t
  let pi := r.1
  let t := r.2
  let entry := entrySymbol t "ib_start"
  let t := if pi.binfmt = .wasm then { t with extension := some ".wasm" } else t
  let t := t.addLdflags ((linkBranch pi).ldflags entry)
  if pi.os = .windows ∨ pi.os = .mingw then { t with links := t.links ++ [("kernel32" : LuaString)] } else t

/-! ## Configuration -/

inductive Rule where
  | warnings
  | clangTarget
  | freestanding
  | entrypoint
  deriving DecidableEq

namespace Rule

def run : Rule → BuildTarget → BuildTarget
  | .warnings => Build.warnings
  | .clangTarget => Build.clangTarget
  | .freestanding => Build.freestanding
  | .entrypoint => Build.entrypoint

/-- The compile flags that a rule adds. -/
def cxxflags (c : Conf) : Rule → List Flag
  | .warnings => warningFlags c.cxx
  | .clangTarget =>
      if c.cxx ≠ .clang ∧ c.cxx ≠ .clangxx then []
      else (triple c).toList.map targetFlag ++
        if (detect c).os = .macos ∧ c.hostMacosx = true then [fcxxModules] else []
  | .freestanding => freestandingFlags
  | .entrypoint => []

/-- The link flags that a rule adds. -/
def ldflags (c : Conf) : Rule → List Flag
  | .clangTarget =>
      if c.cxx ≠ .clang ∧ c.cxx ≠ .clangxx then []
      else (triple c).toList.map targetFlag ++ [⟨"-v", none⟩]
  | .entrypoint =>
      (linkBranch (detect c)).ldflags (Platform.symprefix (detect c) ++ ("ib_start" : LuaString))
  | .warnings | .freestanding => []

/-- The libraries that a rule links. -/
def links (c : Conf) : Rule → List LuaString
  | .entrypoint => if (detect c).binfmt = .pe then ["kernel32"] else []
  | .warnings | .clangTarget | .freestanding => []

/-- The file extension that a rule sets. -/
def extension (c : Conf) : Rule → Option LuaString
  | .entrypoint => if (detect c).binfmt = .wasm then some ".wasm" else none
  | .warnings | .clangTarget | .freestanding => none

end Rule

/-- The rules of a target, one after the other. -/
def configure (rules : List Rule) (t : BuildTarget) : BuildTarget :=
  rules.foldl (fun t rule => rule.run t) t

/-- `t'` is `t` with what the rules add. A later extension replaces an earlier one. -/
structure Adds (rules : List Rule) (t t' : BuildTarget) : Prop where
  conf : t'.conf = t.conf
  cxxflags : t'.cxxflags = t.cxxflags ++ rules.flatMap (Rule.cxxflags t.conf)
  ldflags : t'.ldflags = t.ldflags ++ rules.flatMap (Rule.ldflags t.conf)
  links : t'.links = t.links ++ rules.flatMap (Rule.links t.conf)
  extension : t'.extension = (rules.reverse.findSome? (Rule.extension t.conf)).or t.extension

namespace Adds

theorem nil (t : BuildTarget) : Adds [] t t where
  conf := rfl
  cxxflags := (List.append_nil _).symm
  ldflags := (List.append_nil _).symm
  links := (List.append_nil _).symm
  extension := rfl

theorem append {rules rules' : List Rule} {t t' t'' : BuildTarget} (h : Adds rules t t')
    (h' : Adds rules' t' t'') : Adds (rules ++ rules') t t'' where
  conf := h'.conf.trans h.conf
  cxxflags := by rw [h'.cxxflags, h.cxxflags, h.conf, List.append_assoc, List.flatMap_append]
  ldflags := by rw [h'.ldflags, h.ldflags, h.conf, List.append_assoc, List.flatMap_append]
  links := by rw [h'.links, h.links, h.conf, List.append_assoc, List.flatMap_append]
  extension := by
    rw [h'.extension, h.extension, h.conf, List.reverse_append, List.findSome?_append,
      Option.or_assoc]

/-- One rule, field by field. -/
theorem single {rule : Rule} {t t' : BuildTarget} (hconf : t'.conf = t.conf)
    (hcxx : t'.cxxflags = t.cxxflags ++ rule.cxxflags t.conf)
    (hld : t'.ldflags = t.ldflags ++ rule.ldflags t.conf)
    (hlinks : t'.links = t.links ++ rule.links t.conf)
    (hext : t'.extension = (rule.extension t.conf).or t.extension) : Adds [rule] t t' where
  conf := hconf
  cxxflags := by rw [List.flatMap_singleton, hcxx]
  ldflags := by rw [List.flatMap_singleton, hld]
  links := by rw [List.flatMap_singleton, hlinks]
  extension := by rw [List.reverse_singleton, List.findSome?_singleton, hext]

end Adds

theorem clangTarget_adds (t : BuildTarget) : Adds [.clangTarget] t (clangTarget t) := by
  by_cases hcxx : t.conf.cxx ≠ .clang ∧ t.conf.cxx ≠ .clangxx
  · apply Adds.single <;>
      simp [clangTarget, Rule.cxxflags, Rule.ldflags, Rule.links, Rule.extension, if_pos hcxx]
  · -- a triple or none, the flag for modules or not
    have hrun := clangTarget.eq_def t
    simp only [if_neg hcxx, get_fst, detect_triple] at hrun
    by_cases hmac : (detect t.conf).os = .macos ∧ t.conf.hostMacosx = true
    · cases htri : triple t.conf <;> apply Adds.single <;>
        simp [hrun, Rule.cxxflags, Rule.ldflags, Rule.links, Rule.extension, if_neg hcxx, if_pos hmac, htri]
    · cases htri : triple t.conf <;> apply Adds.single <;>
        simp [hrun, Rule.cxxflags, Rule.ldflags, Rule.links, Rule.extension, if_neg hcxx, if_neg hmac, htri]

theorem entrypoint_adds (t : BuildTarget) : Adds [.entrypoint] t (entrypoint t) := by
  have hpe := binfmtOf_pe_iff (detect t.conf).os
  change (detect t.conf).binfmt = .pe ↔ _ at hpe
  -- the extension is set for wasm, the library is linked for PE
  apply Adds.single <;>
    simp only [entrypoint, entrySymbol, Rule.cxxflags, Rule.ldflags, Rule.links, Rule.extension, get_fst,
      get_snd_conf, hpe] <;>
    split <;> split <;> simp

/-- **Step.** A rule adds what depends on the configuration alone. -/
theorem Rule.run_spec (rule : Rule) (t : BuildTarget) : Adds [rule] t (rule.run t) := by
  cases rule with
  | warnings => exact .single rfl rfl (List.append_nil _).symm (List.append_nil _).symm rfl
  | clangTarget => exact clangTarget_adds t
  | freestanding => exact .single rfl rfl (List.append_nil _).symm (List.append_nil _).symm rfl
  | entrypoint => exact entrypoint_adds t

/-- **Run.** So do rules in any order and number. -/
theorem configure_spec (rules : List Rule) (t : BuildTarget) : Adds rules t (configure rules t) := by
  induction rules generalizing t with
  | nil => exact .nil t
  | cons rule rules ih => exact (rule.run_spec t).append (ih (rule.run t))

/-- Whatever rules have run, the record is the one of the configuration. -/
theorem get_configure (c : Conf) (rules : List Rule) :
    (get (configure rules (.fresh c))).1 = detect c := by
  rw [get_fst, (configure_spec rules _).conf, BuildTarget.fresh_conf]

/-! ## The triple that clang is given -/

/-- A flag for all tools whose second letter is no dash names no triple. -/
theorem targetFlag_not_mem {tri : LuaString} {flags : List Flag}
    (h : ∀ f ∈ flags, f.tools ≠ none ∨ f.flag[1]? ≠ some '-') : targetFlag tri ∉ flags := by
  intro hin
  rcases h _ hin with htools | hletter
  · exact htools rfl
  · exact hletter rfl

theorem isClang_of_not {c : Conf} (h : ¬ (c.cxx ≠ .clang ∧ c.cxx ≠ .clangxx)) :
    c.cxx = .clang ∨ c.cxx = .clangxx := by
  by_contra hne
  exact h (not_or.mp hne)

/-- What `ib.clang.target` adds for compiling. -/
theorem mem_clangTarget_cxxflags {c : Conf} {f : Flag} (h : f ∈ Rule.cxxflags c .clangTarget) :
    (c.cxx = .clang ∨ c.cxx = .clangxx) ∧ ((∃ tri, f = targetFlag tri) ∨ f = fcxxModules) := by
  by_cases hcxx : c.cxx ≠ .clang ∧ c.cxx ≠ .clangxx
  · rw [Rule.cxxflags, if_pos hcxx] at h
    exact absurd h List.not_mem_nil
  · refine ⟨isClang_of_not hcxx, ?_⟩
    rw [Rule.cxxflags, if_neg hcxx] at h
    rcases List.mem_append.mp h with hin | hin
    · obtain ⟨tri, -, rfl⟩ := List.mem_map.mp hin
      exact Or.inl ⟨tri, rfl⟩
    · split at hin
      · exact Or.inr (List.mem_singleton.mp hin)
      · exact absurd hin List.not_mem_nil

/-- What it adds for linking. -/
theorem mem_clangTarget_ldflags {c : Conf} {f : Flag} (h : f ∈ Rule.ldflags c .clangTarget) :
    (∃ tri, f = targetFlag tri) ∨ f = ⟨"-v", none⟩ := by
  by_cases hcxx : c.cxx ≠ .clang ∧ c.cxx ≠ .clangxx
  · rw [Rule.ldflags, if_pos hcxx] at h
    exact absurd h List.not_mem_nil
  · rw [Rule.ldflags, if_neg hcxx] at h
    rcases List.mem_append.mp h with hin | hin
    · obtain ⟨tri, -, rfl⟩ := List.mem_map.mp hin
      exact Or.inl ⟨tri, rfl⟩
    · exact Or.inr (List.mem_singleton.mp hin)

theorem targetFlag_mem_cxxflags_iff (c : Conf) (rule : Rule) (tri : LuaString) :
    targetFlag tri ∈ rule.cxxflags c ↔
      rule = .clangTarget ∧ (c.cxx = .clang ∨ c.cxx = .clangxx) ∧ triple c = some tri := by
  cases rule with
  | warnings =>
      refine iff_of_false (targetFlag_not_mem ?_) (by simp)
      show ∀ f ∈ warningFlags c.cxx, _
      cases c.cxx <;> decide
  | freestanding =>
      refine iff_of_false (targetFlag_not_mem ?_) (by simp)
      show ∀ f ∈ freestandingFlags, _
      decide
  | entrypoint => simp [Rule.cxxflags]
  | clangTarget =>
      by_cases hcxx : c.cxx ≠ .clang ∧ c.cxx ≠ .clangxx
      · simp [Rule.cxxflags, hcxx]
      · have hclang := isClang_of_not hcxx
        have hmodules : targetFlag tri ∉
            if (detect c).os = .macos ∧ c.hostMacosx = true then [fcxxModules] else [] := by
          apply targetFlag_not_mem
          split <;> decide
        simp only [Rule.cxxflags, if_neg hcxx, List.mem_append, hmodules, or_false, List.mem_map,
          Option.mem_toList, targetFlag_inj, exists_eq_right, hclang, true_and]

/-- Clang is handed a triple exactly when there is one, whatever the plat is. -/
theorem targetFlag_mem_iff (c : Conf) (rules : List Rule) (tri : LuaString) :
    targetFlag tri ∈ (configure rules (.fresh c)).cxxflags ↔
      .clangTarget ∈ rules ∧ (c.cxx = .clang ∨ c.cxx = .clangxx) ∧ triple c = some tri := by
  rw [(configure_spec rules _).cxxflags, BuildTarget.fresh_cxxflags, List.nil_append, List.mem_flatMap]
  simp only [BuildTarget.fresh_conf, targetFlag_mem_cxxflags_iff]
  refine ⟨?_, ?_⟩
  · rintro ⟨rule, hin, rfl, h⟩
    exact ⟨hin, h⟩
  · rintro ⟨hin, h⟩
    exact ⟨.clangTarget, hin, rfl, h⟩

/-! ## The record and the triple -/

/-- The record describes the triple: its OS and arch are the triple's, and the rest follows. -/
def Describes (info : Platform) (tri : LuaString) : Prop :=
  info.os = osFromTriple tri ∧ info.arch = archFromTriple tri ∧
    info.binfmt = binfmtOf (osFromTriple tri) ∧
    info.ldstyle = ldstyleOf (osFromTriple tri) (binfmtOf (osFromTriple tri)) ∧
    Platform.symprefix info = symprefixOf (binfmtOf (osFromTriple tri)) (archFromTriple tri)

/-- OS and arch decide the rest of a record. -/
theorem describes_detect_iff (c : Conf) (tri : LuaString) :
    Describes (detect c) tri ↔
      (detect c).os = osFromTriple tri ∧ (detect c).arch = archFromTriple tri := by
  refine ⟨fun h => ⟨h.1, h.2.1⟩, ?_⟩
  intro ⟨hos, harch⟩
  refine ⟨hos, harch, ?_, ?_, ?_⟩
  · rw [← hos]
    rfl
  · rw [← hos]
    rfl
  · rw [← hos, ← harch]
    rfl

/-- On a plat that the triple drives, the record describes it. -/
theorem detect_of_driven {c : Conf} (hplat : c.plat = .cross ∨ c.plat = .generic)
    {tri : LuaString} (htri : triple c = some tri) : Describes (detect c) tri := by
  rw [describes_detect_iff]
  simp only [detect, hplat, htri, if_true, and_self]

/-- **The record and the triple given to clang.** After any rules, the record of the target describes a
triple that was handed to clang exactly when the plat is one that the triple drives, or when the OS of
the plat and the arch of the target are those of the triple anyway. -/
theorem describes_triple_iff (c : Conf) (rules : List Rule) (tri : LuaString)
    (hpass : targetFlag tri ∈ (configure rules (.fresh c)).cxxflags) :
    Describes (get (configure rules (.fresh c))).1 tri ↔
      (c.plat = .cross ∨ c.plat = .generic) ∨
        (c.plat.os = some (osFromTriple tri) ∧ c.arch = archFromTriple tri) := by
  obtain ⟨-, -, htri⟩ := (targetFlag_mem_iff c rules tri).mp hpass
  rw [get_configure]
  by_cases hplat : c.plat = .cross ∨ c.plat = .generic
  · exact iff_of_true (detect_of_driven hplat htri) (Or.inl hplat)
  · have hos : c.plat.os = some ((c.plat.os).getD .baremetal) := by
      cases h : c.plat <;> simp [Plat.os] <;> simp [h] at hplat
    rw [describes_detect_iff, or_iff_right hplat, hos, Option.some.injEq]
    simp only [detect, if_neg hplat]

/-- A macOS triple on the cross plat: the record describes it, whatever the arch of the target is. -/
theorem describes_triple_cross :
    Describes (get (configure [.entrypoint, .clangTarget] (.fresh
      ⟨.cross, "x86_64", .nil, some "aarch64-apple-macos11.0", .clang, false⟩))).1
      "aarch64-apple-macos11.0" :=
  (describes_triple_iff ⟨.cross, "x86_64", .nil, some "aarch64-apple-macos11.0", .clang, false⟩
    [.entrypoint, .clangTarget] "aarch64-apple-macos11.0"
    ((targetFlag_mem_iff _ _ _).mpr ⟨by simp, Or.inl rfl, rfl⟩)).mpr (Or.inl (Or.inl rfl))

/-- The same triple on the Linux plat: clang compiles for macOS, and the record says Linux. -/
theorem describes_triple_linux_fails :
    ¬ ∀ (c : Conf) (rules : List Rule) (tri : LuaString),
      c.plat ∈ [Plat.windows, .mingw, .linux, .cross, .wasm] →
      targetFlag tri ∈ (configure rules (.fresh c)).cxxflags →
      Describes (get (configure rules (.fresh c))).1 tri := by
  intro h
  let c : Conf := ⟨.linux, "x86_64", .nil, some "x86_64-apple-macos11.0", .clang, false⟩
  have hpass : targetFlag "x86_64-apple-macos11.0" ∈
      (configure [.entrypoint, .clangTarget] (.fresh c)).cxxflags :=
    (targetFlag_mem_iff _ _ _).mpr ⟨by simp, Or.inl rfl, rfl⟩
  have hos := (h c _ _ (by simp [c]) hpass).1
  rw [get_configure] at hos
  exact absurd hos (by decide)

end IbSys.Build
