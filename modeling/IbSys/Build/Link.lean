/-
# IbSys.Build.Link -- what the tools are given

The targets of `xmake.lua`: `ib_library` and `ib_executable` add flags of their own and run the rules. A flag
may be for some tools only, so what matters is what a tool is given in the end (`flagsFor`). Whatever rules
run and in whatever order, a compiler is spoken to in its own dialect (`compile_flags_dialect`), clang links
for the triple that it compiles for (`linked_triple_iff`), and the drivers agree on the symbol where the
program is entered (`entry_told`).
-/
import IbSys.Build.Rules

namespace IbSys.Build

/-! ## The targets of the project -/

/-- What `ib_library` and `ib_executable` add themselves. -/
def ibTarget (c : Conf) : BuildTarget :=
  let t := (BuildTarget.fresh c).addCxxflags
    [⟨"-fno-rtti", some [.clang, .gcc, .clangxx, .gxx]⟩,
      ⟨"-fno-stack-protector", some [.clang, .gcc, .clangxx, .gxx]⟩]
  t.addCxxflags [⟨"/GS-", some [.cl, .clang_cl]⟩]

/-- Rules with `on_load` run before those with `on_config`. -/
def ibLibrary (c : Conf) : BuildTarget :=
  configure [.warnings, .clangTarget, .freestanding] (ibTarget c)

def ibExecutable (c : Conf) : BuildTarget :=
  configure [.entrypoint, .warnings, .clangTarget, .freestanding] (ibTarget c)

/-- An executable for Windows on x86, by clang and the MinGW runtime's triple. -/
def mingwX86 : Conf := ⟨.cross, "", .nil, some "i686-w64-mingw32", .clang, false⟩

/-! ## What a tool is given -/

/-- The flags that a tool is given. -/
def flagsFor (tool : Tool) (flags : List Flag) : List LuaString :=
  (flags.filter fun f => f.tools.all fun tools => tool ∈ tools).map Flag.flag

theorem mem_flagsFor_iff {tool : Tool} {flags : List Flag} {s : LuaString} :
    s ∈ flagsFor tool flags ↔ ∃ f ∈ flags, (∀ tools, f.tools = some tools → tool ∈ tools) ∧
      f.flag = s := by
  simp only [flagsFor, List.mem_map, List.mem_filter, and_assoc]
  refine exists_congr fun f => and_congr_right fun _ => and_congr_left fun _ => ?_
  cases f.tools <;> simp

theorem flagsFor_append (tool : Tool) (flags flags' : List Flag) :
    flagsFor tool (flags ++ flags') = flagsFor tool flags ++ flagsFor tool flags' := by
  simp [flagsFor]

theorem ldflags_configure (rules : List Rule) (c : Conf) :
    (configure rules (ibTarget c)).ldflags = rules.flatMap (Rule.ldflags c) := by
  rw [(configure_spec rules (ibTarget c)).ldflags]
  rfl

theorem cxxflags_configure (rules : List Rule) (c : Conf) :
    (configure rules (ibTarget c)).cxxflags =
      (ibTarget c).cxxflags ++ rules.flatMap (Rule.cxxflags c) :=
  (configure_spec rules (ibTarget c)).cxxflags

/-- A flag that a compiler is given is one of the project's own or comes from a rule. -/
theorem mem_flagsFor_configure_iff (rules : List Rule) (c : Conf) (tool : Tool) (s : LuaString) :
    s ∈ flagsFor tool (configure rules (ibTarget c)).cxxflags ↔
      s ∈ flagsFor tool (ibTarget c).cxxflags ∨
        ∃ rule ∈ rules, s ∈ flagsFor tool (rule.cxxflags c) := by
  have hrules : ∀ rules : List Rule,
      flagsFor tool (rules.flatMap (Rule.cxxflags c)) =
        rules.flatMap fun rule => flagsFor tool (rule.cxxflags c) := by
    intro rules
    induction rules with
    | nil => rfl
    | cons rule rules ih => rw [List.flatMap_cons, flagsFor_append, ih, List.flatMap_cons]
  rw [cxxflags_configure, flagsFor_append, hrules, List.mem_append, List.mem_flatMap]

/-! ## Compiling -/

/-- The flags of one rule that a compiler is given speak its dialect: `cl` is given options with a slash, the
GNU drivers are given options with a dash. -/
theorem cxxflags_dialect (c : Conf) (rule : Rule) :
    ∀ s ∈ flagsFor c.cxx (rule.cxxflags c), (c.cxx = .cl → s.head? = some '/') ∧
      (c.cxx ∈ gnuTools → s.head? = some '-') := by
  cases rule with
  | entrypoint => exact fun s hs => absurd hs List.not_mem_nil
  | warnings =>
      show ∀ s ∈ flagsFor c.cxx (warningFlags c.cxx), _
      cases c.cxx <;> decide
  | freestanding =>
      show ∀ s ∈ flagsFor c.cxx freestandingFlags, _
      cases c.cxx <;> decide
  | clangTarget =>
      intro s hs
      obtain ⟨f, hf, -, rfl⟩ := mem_flagsFor_iff.mp hs
      obtain ⟨hclang, hflag⟩ := mem_clangTarget_cxxflags hf
      refine ⟨?_, ?_⟩
      · intro hcl
        rw [hcl] at hclang
        exact absurd hclang (by decide)
      · intro _
        rcases hflag with ⟨tri, rfl⟩ | rfl <;> rfl

/-- **Every compiler is spoken to in its dialect**, after rules in any order. -/
theorem compile_flags_dialect (rules : List Rule) (c : Conf) {s : LuaString}
    (hs : s ∈ flagsFor c.cxx (configure rules (ibTarget c)).cxxflags) :
    (c.cxx = .cl → s.head? = some '/') ∧ (c.cxx ∈ gnuTools → s.head? = some '-') := by
  rcases (mem_flagsFor_configure_iff rules c c.cxx s).mp hs with hown | ⟨rule, -, hrule⟩
  · have htable : ∀ tool : Tool, ∀ s ∈ flagsFor tool
        (ibTarget ⟨.linux, "", .nil, none, .clang, false⟩).cxxflags,
        (tool = .cl → s.head? = some '/') ∧ (tool ∈ gnuTools → s.head? = some '-') := by
      intro tool
      cases tool <;> decide
    exact htable c.cxx s hown
  · exact cxxflags_dialect c rule s hrule

theorem compile_flags_dialect_mingw :
    (mingwX86.cxx = .cl → ("--target=i686-w64-mingw32" : LuaString).head? = some '/') ∧
      (mingwX86.cxx ∈ gnuTools → ("--target=i686-w64-mingw32" : LuaString).head? = some '-') :=
  compile_flags_dialect [.entrypoint, .clangTarget] mingwX86 (by decide)

/-- The option that keeps a compiler from the system headers. -/
def headerFlag : Tool → Option LuaString
  | .clang | .clangxx | .gcc | .gxx => some "-nostdinc"
  | .cl | .clang_cl => some "/X"
  | .link => none

theorem headerFlag_mem_rule_iff (c : Conf) {s : LuaString} (hs : headerFlag c.cxx = some s)
    (rule : Rule) : s ∈ flagsFor c.cxx (rule.cxxflags c) ↔ rule = .freestanding := by
  cases rule with
  | freestanding =>
      refine iff_of_true ?_ rfl
      show s ∈ flagsFor c.cxx freestandingFlags
      revert hs
      cases c.cxx <;> rintro ⟨⟩ <;> decide
  | entrypoint => exact iff_of_false List.not_mem_nil (by decide)
  | warnings =>
      refine iff_of_false ?_ (by decide)
      show s ∉ flagsFor c.cxx (warningFlags c.cxx)
      revert hs
      cases c.cxx <;> rintro ⟨⟩ <;> decide
  | clangTarget =>
      refine iff_of_false ?_ (by decide)
      intro h
      obtain ⟨f, hf, -, rfl⟩ := mem_flagsFor_iff.mp h
      -- the second letter of a header flag is not that of a triple
      have hletter : ∀ tool, ∀ s ∈ headerFlag tool, s[1]? ≠ some '-' ∧ s ≠ fcxxModules.flag := by
        intro tool
        cases tool <;> decide
      obtain ⟨hdash, hmodules⟩ := hletter c.cxx f.flag hs
      rcases (mem_clangTarget_cxxflags hf).2 with ⟨tri, rfl⟩ | rfl
      · exact hdash rfl
      · exact hmodules rfl

/-- **No compiler sees the system headers** once the freestanding rule has run, in whatever order: each is
given the option of its dialect, which no other rule gives. -/
theorem headers_excluded_iff (rules : List Rule) (c : Conf) {s : LuaString}
    (hs : headerFlag c.cxx = some s) :
    s ∈ flagsFor c.cxx (configure rules (ibTarget c)).cxxflags ↔ .freestanding ∈ rules := by
  have hown : s ∉ flagsFor c.cxx (ibTarget c).cxxflags := by
    show s ∉ flagsFor c.cxx (ibTarget ⟨.linux, "", .nil, none, .clang, false⟩).cxxflags
    revert hs
    cases c.cxx <;> rintro ⟨⟩ <;> decide
  rw [mem_flagsFor_configure_iff, or_iff_right hown]
  simp only [headerFlag_mem_rule_iff c hs]
  constructor
  · rintro ⟨rule, hin, rfl⟩
    exact hin
  · intro h
    exact ⟨_, h, rfl⟩

/-! ## Linking -/

theorem kernel32_mem_links_iff (c : Conf) (rule : Rule) :
    ("kernel32" : LuaString) ∈ rule.links c ↔ rule = .entrypoint ∧ (detect c).binfmt = .pe := by
  cases rule with
  | entrypoint =>
      by_cases hpe : (detect c).binfmt = .pe
      · simp only [Rule.links, hpe, if_true, List.mem_singleton, and_self]
      · simp only [Rule.links, hpe, if_false, List.not_mem_nil, and_false]
  | warnings | clangTarget | freestanding => exact iff_of_false List.not_mem_nil (by simp)

/-- **`kernel32` goes with the PE format**, whatever rules run besides. -/
theorem kernel32_linked_iff (rules : List Rule) (c : Conf) :
    ("kernel32" : LuaString) ∈ (configure rules (ibTarget c)).links ↔
      .entrypoint ∈ rules ∧ isPe (configure rules (ibTarget c)) = true := by
  have hrun := configure_spec rules (ibTarget c)
  rw [isPe_iff, hrun.conf, hrun.links, show (ibTarget c).links = [] from rfl, List.nil_append,
    List.mem_flatMap]
  change (∃ rule ∈ rules, _ ∈ Rule.links c rule) ↔ _ ∧ (detect c).binfmt = .pe
  simp only [kernel32_mem_links_iff]
  constructor
  · rintro ⟨rule, hin, rfl, hpe⟩
    exact ⟨hin, hpe⟩
  · rintro ⟨hin, hpe⟩
    exact ⟨.entrypoint, hin, rfl, hpe⟩

theorem targetFlag_not_mem_entrypoint (tri mangled : LuaString) (b : LinkBranch) :
    targetFlag tri ∉ b.ldflags mangled := by
  apply targetFlag_not_mem
  cases b <;> simp [LinkBranch.ldflags]

/-- A rule that hands clang a triple hands it over for compiling and for linking. -/
theorem targetFlag_mem_rule_iff (c : Conf) (rule : Rule) (tri : LuaString) :
    targetFlag tri ∈ rule.ldflags c ↔ targetFlag tri ∈ rule.cxxflags c := by
  rw [targetFlag_mem_cxxflags_iff]
  cases rule with
  | warnings | freestanding => exact iff_of_false List.not_mem_nil (by simp)
  | entrypoint => exact iff_of_false (targetFlag_not_mem_entrypoint tri _ _) (by simp)
  | clangTarget =>
      have hv : targetFlag tri ∉ ([⟨"-v", none⟩] : List Flag) := targetFlag_not_mem (by decide)
      by_cases hcxx : c.cxx ≠ .clang ∧ c.cxx ≠ .clangxx
      · simp [Rule.ldflags, hcxx]
      · have hclang := isClang_of_not hcxx
        simp only [Rule.ldflags, if_neg hcxx, List.mem_append, hv, or_false, List.mem_map,
          Option.mem_toList, targetFlag_inj, exists_eq_right, hclang, true_and]

/-- **Clang links for what it compiles for**, after rules in any order. -/
theorem linked_triple_iff (rules : List Rule) (c : Conf) (tri : LuaString) :
    targetFlag tri ∈ (configure rules (ibTarget c)).ldflags ↔
      targetFlag tri ∈ (configure rules (ibTarget c)).cxxflags := by
  have hown : targetFlag tri ∉ (ibTarget c).cxxflags := targetFlag_not_mem <| by
    show ∀ f ∈ (ibTarget ⟨.linux, "", .nil, none, .clang, false⟩).cxxflags, _
    decide
  rw [ldflags_configure, cxxflags_configure, List.mem_append, or_iff_right hown, List.mem_flatMap,
    List.mem_flatMap]
  exact exists_congr fun rule => and_congr_right fun _ => targetFlag_mem_rule_iff c rule tri

/-! ## Where the program is entered -/

/-- The symbol that a link flag asks to enter at. -/
def entryOf (flag : LuaString) : Option LuaString :=
  if ("-Wl,-e," : LuaString) <+: flag then some (flag.drop 7)
  else if ("/ENTRY:" : LuaString) <+: flag then some (flag.drop 7)
  else if ("-Wl,/ENTRY:" : LuaString) <+: flag then some (flag.drop 11)
  else none

/-- All that a tool is told of it. -/
def entries (tool : Tool) (flags : List Flag) : List LuaString := (flagsFor tool flags).filterMap entryOf

theorem mem_entries_ldflags {b : LinkBranch} {mangled symbol : LuaString}
    (h : symbol ∈ (b.ldflags mangled).filterMap fun f => entryOf f.flag) :
    symbol = if b = .msvc then ("ib_start" : LuaString) else mangled := by
  cases b with
  | msvc =>
      change symbol ∈ ["ib_start".toList, "ib_start".toList] at h
      simpa using h
  | mingw | macho | elf =>
      change symbol ∈ [mangled] at h
      exact List.mem_singleton.mp h
  | wasm => exact absurd h List.not_mem_nil

/-- The second letter of a flag tells `--target=` and `-v` from an entry. -/
theorem entryOf_eq_none {flag : LuaString} (h : flag[1]? = some '-' ∨ flag[1]? = some 'v') :
    entryOf flag = none := by
  have hno : ∀ p : LuaString, p[1]? = some 'W' ∨ p[1]? = some 'E' → ¬ p <+: flag := by
    rintro p hp ⟨rest, rfl⟩
    have hlen : 1 < p.length := by
      rcases hp with hp | hp <;> exact (List.getElem?_eq_some_iff.mp hp).1
    rw [List.getElem?_append_left hlen] at h
    rcases hp with hp | hp <;> rw [hp] at h <;> exact absurd h (by decide)
  unfold entryOf
  rw [if_neg (hno _ (by decide)), if_neg (hno _ (by decide)), if_neg (hno _ (by decide))]

theorem linkBranch_msvc_iff (info : Platform) : linkBranch info = .msvc ↔ info.os = .windows := by
  unfold linkBranch
  by_cases hos : info.os = .windows
  · rw [if_pos hos]
    exact iff_of_true rfl hos
  · rw [if_neg hos]
    exact iff_of_false (by split_ifs <;> decide) hos

/-- **Where the program is entered.** After rules in any order, a tool that is told where to enter is told the
start code: by its mangled name, but on Windows, where the linker decorates the name itself, by its own. -/
theorem entry_told {rules : List Rule} {c : Conf} {tool : Tool} {symbol : LuaString}
    (h : symbol ∈ entries tool (configure rules (ibTarget c)).ldflags) :
    .entrypoint ∈ rules ∧ symbol =
      if (detect c).os = .windows then ("ib_start" : LuaString)
      else Platform.symprefix (detect c) ++ ("ib_start" : LuaString) := by
  obtain ⟨flag, hflag, hsymbol⟩ := List.mem_filterMap.mp h
  obtain ⟨f, hf, -, rfl⟩ := mem_flagsFor_iff.mp hflag
  rw [ldflags_configure, List.mem_flatMap] at hf
  obtain ⟨rule, hin, hf⟩ := hf
  cases rule with
  | warnings | freestanding => exact absurd hf List.not_mem_nil
  | clangTarget =>
      have hnone : entryOf f.flag = none := by
        rcases mem_clangTarget_ldflags hf with ⟨tri, rfl⟩ | rfl
        · exact entryOf_eq_none (Or.inl rfl)
        · exact entryOf_eq_none (Or.inr rfl)
      rw [hnone] at hsymbol
      cases hsymbol
  | entrypoint =>
      have hentry := mem_entries_ldflags (List.mem_filterMap.mpr ⟨f, hf, hsymbol⟩)
      simp only [linkBranch_msvc_iff] at hentry
      exact ⟨hin, hentry⟩

example : entries .clang (ibExecutable mingwX86).ldflags = ["_ib_start".toList] := by decide

end IbSys.Build
