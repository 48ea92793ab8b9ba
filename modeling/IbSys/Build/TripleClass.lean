/-
# IbSys.Build.TripleClass -- which triples are classified alike

On the cross plat the record is a function of the triple, and two triples are alike when OS and arch
come out the same. The OS depends on the keywords that occur in the lowercased triple, the arch on the
first field. Letters without case, such as those of a version, change neither
(`sameClass_of_caseVariant`). Two spellings of one system may contain different keywords, and then they
are alike only by accident (`windows_spellings_iff`).
-/
import IbSys.Build.Rules

namespace IbSys.Build

open Keywords

/-! ## Records that agree -/

/-- The records of the two configurations agree on everything but plat and triple. -/
structure SameClass (c c' : Conf) : Prop where
  os : (detect c).os = (detect c').os
  arch : (detect c).arch = (detect c').arch
  binfmt : (detect c).binfmt = (detect c').binfmt
  ldstyle : (detect c).ldstyle = (detect c').ldstyle
  symprefix : Platform.symprefix (detect c) = Platform.symprefix (detect c')

/-- OS and arch of a triple decide the class. -/
theorem sameClass_of_describes {c c' : Conf} {tri tri' : LuaString}
    (h : Describes (detect c) tri) (h' : Describes (detect c') tri')
    (hos : osFromTriple tri = osFromTriple tri')
    (harch : archFromTriple tri = archFromTriple tri') : SameClass c c' := by
  obtain ⟨h1, h2, h3, h4, h5⟩ := h
  obtain ⟨h1', h2', h3', h4', h5'⟩ := h'
  rw [← hos] at h1' h3' h4' h5'
  rw [← harch] at h2' h5'
  exact
    { os := h1.trans h1'.symm
      arch := h2.trans h2'.symm
      binfmt := h3.trans h3'.symm
      ldstyle := h4.trans h4'.symm
      symprefix := h5.trans h5'.symm }

namespace SameClass

variable {c c' : Conf}

/-- Targets of one class are entered at the same symbol. -/
theorem entrySymbol (h : SameClass c c') {t t' : BuildTarget} (ht : t.conf = c) (ht' : t'.conf = c')
    (name : LuaString) : Build.entrySymbol t name = Build.entrySymbol t' name := by
  unfold Build.entrySymbol
  rw [get_fst, get_fst, ht, ht', SameClass.symprefix h]

/-- Targets of one class are linked with the same flags. -/
theorem linkBranch (h : SameClass c c') :
    Build.linkBranch (detect c) = Build.linkBranch (detect c') := by
  unfold Build.linkBranch
  rw [h.os, h.binfmt]

end SameClass

/-! ## Letter case -/

theorem lower_append (s s' : LuaString) : lower (s ++ s') = lower s ++ lower s' :=
  List.map_append

/-- What is no letter is not the lowercase of anything else. -/
theorem toLower_eq_iff {ch d : Char} (hd : d.isAlpha = false) : ch.toLower = d ↔ ch = d := by
  have hupper : ∀ e : Char, e.isAlpha = false → e.toLower = e := by
    intro e he
    apply Char.toLower_eq_of_not_isUpper
    intro hu
    rw [Char.isAlpha, hu, Bool.true_or] at he
    exact Bool.noConfusion he
  refine ⟨?_, ?_⟩
  · intro h
    have hch : ch.isAlpha = false := by
      rw [← Char.isAlpha_toLower_eq_isAlpha, h, hd]
    rwa [hupper ch hch] at h
  · rintro rfl
    exact hupper ch hd

theorem dash_mem_lower_iff (s : LuaString) : '-' ∈ lower s ↔ '-' ∈ s := by
  unfold lower
  rw [List.mem_map]
  refine ⟨?_, ?_⟩
  · rintro ⟨ch, hch, hdash⟩
    rwa [(toLower_eq_iff (by decide)).mp hdash] at hch
  · intro h
    exact ⟨'-', h, rfl⟩

theorem lower_eq_nil_iff (s : LuaString) : lower s = [] ↔ s = [] :=
  List.map_eq_nil_iff

/-! ## Keywords and fields of a triple -/

theorem osmap_keys : ∀ e ∈ osmap, e.1 ≠ [] ∧ '-' ∉ e.1 ∧ ∀ ch ∈ e.1, ch.isAlpha = true := by
  simp [osmap]

/-- A keyword occurs in a triple when it occurs in a field. -/
theorem occurs_iff {e : LuaString × OsName} (he : e ∈ osmap) (s s' : LuaString) :
    e.1 <:+: lower (s ++ '-' :: s') ↔ e.1 <:+: lower s ∨ e.1 <:+: lower s' := by
  obtain ⟨hne, hdash, -⟩ := osmap_keys e he
  rw [lower_append, show lower ('-' :: s') = '-' :: lower s' from rfl]
  exact infix_append_cons_iff hne hdash

/-- The arch is that of the first field. -/
theorem archFromTriple_append {arch : LuaString} (hne : arch ≠ []) (hdash : '-' ∉ arch)
    (s : LuaString) :
    archFromTriple (arch ++ '-' :: s) = (archAlias.lookup (lower arch)).getD (lower arch) := by
  unfold archFromTriple
  rw [fields_append_cons hne hdash]
  rfl

theorem archFromTriple_cons (s : LuaString) : archFromTriple ('-' :: s) = archFromTriple s := by
  unfold archFromTriple
  rw [fields_cons_self]

/-! ## Case and version -/

/-- The strings differ in the case of ASCII letters only. -/
def CaseVariant (s s' : LuaString) : Prop :=
  List.Forall₂ (fun ch ch' => ch.toLower = ch'.toLower) s s'

theorem CaseVariant.lower_eq {s s' : LuaString} (h : CaseVariant s s') : lower s = lower s' := by
  induction h with
  | nil => rfl
  | cons hch _ ih =>
      show _ :: lower _ = _ :: lower _
      rw [hch, ih]

/-- A string of digits and dots has no letter, in upper or lower case. -/
theorem not_alpha_of_version {ch : Char} (h : ch.isDigit = true ∨ ch = '.') :
    ch.isAlpha = false := by
  rcases h with h | rfl
  · simp [Char.isDigit, Char.isAlpha, Char.isUpper, Char.isLower, UInt32.le_iff_toNat_le] at h ⊢
    omega
  · rfl

/-- A version adds no keyword. -/
theorem occurs_append_version_iff {e : LuaString × OsName} (he : e ∈ osmap) (s : LuaString)
    {version : LuaString} (hv : ∀ ch ∈ version, ch.isDigit = true ∨ ch = '.') :
    e.1 <:+: lower (s ++ version) ↔ e.1 <:+: lower s := by
  obtain ⟨hne, -, halpha⟩ := osmap_keys e he
  rw [lower_append]
  apply infix_append_iff_of_foreign hne
  intro ch hch hin
  -- a letter of the keyword would be the lowercase of a digit or a dot
  obtain ⟨d, hd, rfl⟩ := List.mem_map.mp hin
  have hd' := halpha _ hch
  rw [Char.isAlpha_toLower_eq_isAlpha, not_alpha_of_version (hv d hd)] at hd'
  exact Bool.noConfusion hd'

theorem osFromTriple_append_version (s : LuaString) {version : LuaString}
    (hv : ∀ ch ∈ version, ch.isDigit = true ∨ ch = '.') :
    osFromTriple (s ++ version) = osFromTriple s := by
  unfold osFromTriple
  congr 1
  apply firstMatch_congr
  intro e he
  exact occurs_append_version_iff he s hv

/-- A string of the same letters as one that starts with a field starts with that field. -/
theorem exists_field_of_lower_eq {arch rest s : LuaString} (hdash : '-' ∉ arch)
    (h : lower (arch ++ '-' :: rest) = lower s) :
    ∃ arch' rest', s = arch' ++ '-' :: rest' ∧ lower arch' = lower arch ∧ '-' ∉ arch' := by
  rw [lower_append] at h
  obtain ⟨arch', s', rfl, harch, hs'⟩ := List.map_eq_append_iff.mp h.symm
  obtain ⟨d, rest', rfl, hd, -⟩ := List.map_eq_cons_iff.mp hs'
  obtain rfl := (toLower_eq_iff (by decide)).mp hd
  refine ⟨arch', rest', rfl, harch, ?_⟩
  rw [← dash_mem_lower_iff, show lower arch' = lower arch from harch, dash_mem_lower_iff]
  exact hdash

/-- **Case and version do not matter.** On the cross plat, a triple in other letter case and with a
version appended is classified as the triple is. -/
theorem sameClass_of_caseVariant (c c' : Conf) (hplat : c.plat = .cross) (hplat' : c'.plat = .cross)
    (arch rest tri version : LuaString) (hne : arch ≠ []) (hdash : '-' ∉ arch)
    (hcase : CaseVariant (arch ++ '-' :: rest) tri)
    (hv : ∀ ch ∈ version, ch.isDigit = true ∨ ch = '.')
    (htri : triple c = some (arch ++ '-' :: rest)) (htri' : triple c' = some (tri ++ version)) :
    SameClass c c' := by
  have hlower := hcase.lower_eq
  have hos : osFromTriple (arch ++ '-' :: rest) = osFromTriple (tri ++ version) := by
    rw [osFromTriple_append_version tri hv]
    unfold osFromTriple
    rw [hlower]
  have harch : archFromTriple (arch ++ '-' :: rest) = archFromTriple (tri ++ version) := by
    obtain ⟨arch', rest', rfl, harch', hdash'⟩ := exists_field_of_lower_eq hdash hlower
    have hne' : arch' ≠ [] := by
      rw [ne_eq, ← lower_eq_nil_iff, harch', lower_eq_nil_iff]
      exact hne
    rw [archFromTriple_append hne hdash, List.append_assoc, List.cons_append,
      archFromTriple_append hne' hdash', harch']
  exact sameClass_of_describes (detect_of_driven (Or.inl hplat) htri)
    (detect_of_driven (Or.inl hplat') htri') hos harch

/-- The cheat sheet's macOS triple, and the same in capitals with another version. -/
theorem sameClass_macos :
    SameClass ⟨.cross, "", .nil, some "x86_64-apple-macos", .clang, false⟩
      ⟨.cross, "arm64", .string "X86_64-Apple-MacOS11.0", none, .gcc, true⟩ :=
  sameClass_of_caseVariant _ _ rfl rfl "x86_64" "apple-macos" "X86_64-Apple-MacOS" "11.0"
    (by decide) (by decide) (by simp [CaseVariant]) (by simp) rfl rfl

/-! ## Two spellings of the GNU environment on Windows -/

/-- The two are built alike: their records agree, and so do the entry symbol and the link flags. -/
def BuiltAlike (c c' : Conf) : Prop :=
  SameClass c c' ∧
    (∀ (t t' : BuildTarget) (name : LuaString), t.conf = c → t'.conf = c' →
      entrySymbol t name = entrySymbol t' name) ∧
    linkBranch (detect c) = linkBranch (detect c')

theorem builtAlike_iff {c c' : Conf} : BuiltAlike c c' ↔ SameClass c c' := by
  refine ⟨fun h => h.1, ?_⟩
  intro h
  exact ⟨h, fun _ _ name ht ht' => h.entrySymbol ht ht' name, h.linkBranch⟩

/-- The keyword occurs in one of the two fields in front of the system, in any letter case. -/
def Mentions (arch vendor : LuaString) (e : LuaString × OsName) : Prop :=
  e.1 <:+: lower arch ∨ e.1 <:+: lower vendor

instance (arch vendor : LuaString) (e : LuaString × OsName) : Decidable (Mentions arch vendor e) :=
  inferInstanceAs (Decidable (_ ∨ _))

/-- The keywords tried before `windows`, and those of them tried before `mingw`. -/
def beforeWindows : List (LuaString × OsName) := osmap.takeWhile fun e => e.2 ≠ .windows

def beforeMingw : List (LuaString × OsName) := osmap.takeWhile fun e => e.2 ≠ .mingw

theorem osmap_split : osmap = beforeMingw ++ osmap.dropWhile fun e => e.2 ≠ .mingw :=
  List.takeWhile_append_dropWhile.symm

theorem beforeWindows_eq :
    beforeWindows = beforeMingw ++
      [(("mingw" : LuaString), .mingw), (("cygwin" : LuaString), .mingw)] := rfl

/-- None of the keywords before `mingw` occurs in either spelling of the system. -/
theorem beforeMingw_keys : ∀ e ∈ beforeMingw,
    ¬ e.1 <:+: lower "mingw32" ∧ ¬ e.1 <:+: lower "windows-gnu" := by
  decide

section Spellings

variable (arch vendor : LuaString)

/-- The triple of a system. -/
def tripleOf (system : LuaString) : LuaString := arch ++ '-' :: (vendor ++ '-' :: system)

theorem occurs_tripleOf_iff {e : LuaString × OsName} (he : e ∈ osmap) (system : LuaString) :
    e.1 <:+: lower (tripleOf arch vendor system) ↔
      Mentions arch vendor e ∨ e.1 <:+: lower system := by
  unfold tripleOf Mentions
  rw [occurs_iff he, occurs_iff he, or_assoc]

/-- A keyword that occurs in the system occurs in the triple. -/
theorem occurs_system {e : LuaString × OsName} (he : e ∈ osmap) {system : LuaString}
    (h : e.1 <:+: lower system) : e.1 <:+: lower (tripleOf arch vendor system) :=
  (occurs_tripleOf_iff arch vendor he system).mpr (Or.inr h)

theorem beforeMingw_subset : beforeMingw ⊆ osmap := by
  rw [osmap_split]
  exact List.subset_append_left _ _

/-- Up to `mingw`, the two spellings are not told apart. -/
theorem firstMatch_beforeMingw :
    firstMatch beforeMingw (lower (tripleOf arch vendor "mingw32")) =
      firstMatch beforeMingw (lower (tripleOf arch vendor "windows-gnu")) := by
  apply firstMatch_congr
  intro e he
  obtain ⟨hmingw, hgnu⟩ := beforeMingw_keys e he
  rw [occurs_tripleOf_iff arch vendor (beforeMingw_subset he),
    occurs_tripleOf_iff arch vendor (beforeMingw_subset he), or_iff_left hmingw,
    or_iff_left hgnu]

/-- None of those keywords decides when arch and vendor mention none. -/
theorem firstMatch_beforeMingw_eq_none_iff :
    firstMatch beforeMingw (lower (tripleOf arch vendor "mingw32")) = none ↔
      ¬ ∃ e ∈ beforeMingw, Mentions arch vendor e := by
  rw [firstMatch_eq_none_iff]
  simp only [not_exists, not_and]
  refine forall₂_congr fun e he => ?_
  rw [occurs_tripleOf_iff arch vendor (beforeMingw_subset he),
    or_iff_left (beforeMingw_keys e he).1]

theorem osFromTriple_mingw32 :
    osFromTriple (tripleOf arch vendor "mingw32") =
      (firstMatch beforeMingw (lower (tripleOf arch vendor "mingw32"))).getD .mingw := by
  have hmingw : "mingw".toList <:+: lower (tripleOf arch vendor "mingw32") :=
    occurs_system arch vendor (e := ("mingw", .mingw)) (by simp [osmap]) (by decide)
  unfold osFromTriple
  rw [osmap_split, firstMatch_append]
  show (Option.or _ (if _ then _ else _)).getD _ = _
  rw [if_pos hmingw]
  cases firstMatch beforeMingw (lower (tripleOf arch vendor "mingw32")) <;> rfl

theorem osFromTriple_windows_gnu :
    osFromTriple (tripleOf arch vendor "windows-gnu") =
      (firstMatch beforeMingw (lower (tripleOf arch vendor "windows-gnu"))).getD
        (if Mentions arch vendor ("mingw", .mingw) ∨ Mentions arch vendor ("cygwin", .mingw)
          then .mingw else .windows) := by
  have hmingw : "mingw".toList <:+: lower (tripleOf arch vendor "windows-gnu") ↔
      Mentions arch vendor ("mingw", .mingw) := by
    rw [occurs_tripleOf_iff arch vendor (e := ("mingw", .mingw)) (by simp [osmap])]
    exact or_iff_left (by decide)
  have hcygwin : "cygwin".toList <:+: lower (tripleOf arch vendor "windows-gnu") ↔
      Mentions arch vendor ("cygwin", .mingw) := by
    rw [occurs_tripleOf_iff arch vendor (e := ("cygwin", .mingw)) (by simp [osmap])]
    exact or_iff_left (by decide)
  have hwindows : "windows".toList <:+: lower (tripleOf arch vendor "windows-gnu") :=
    occurs_system arch vendor (e := ("windows", .windows)) (by simp [osmap]) (by decide)
  unfold osFromTriple
  rw [osmap_split, firstMatch_append]
  show (Option.or _ (if _ then _ else if _ then _ else if _ then _ else _)).getD _ = _
  rw [if_pos hwindows]
  cases firstMatch beforeMingw (lower (tripleOf arch vendor "windows-gnu")) with
  | some os => rfl
  | none =>
      by_cases hm : Mentions arch vendor ("mingw", .mingw)
      · rw [if_pos (hmingw.mpr hm), if_pos (Or.inl hm)]
        rfl
      · rw [if_neg fun h => hm (hmingw.mp h)]
        by_cases hc : Mentions arch vendor ("cygwin", .mingw)
        · rw [if_pos (hcygwin.mpr hc), if_pos (Or.inr hc)]
          rfl
        · rw [if_neg fun h => hc (hcygwin.mp h), if_neg (not_or.mpr ⟨hm, hc⟩)]
          rfl

theorem exists_beforeWindows_iff :
    (∃ e ∈ beforeWindows, Mentions arch vendor e) ↔ (∃ e ∈ beforeMingw, Mentions arch vendor e) ∨
      Mentions arch vendor ("mingw", .mingw) ∨ Mentions arch vendor ("cygwin", .mingw) := by
  simp only [beforeWindows_eq, List.mem_append, List.mem_cons, List.not_mem_nil, or_false,
    or_and_right, exists_or, exists_eq_left]

/-- The two systems come out the same when an earlier keyword decides, or `mingw` or `cygwin` does. -/
theorem osFromTriple_spellings_iff :
    osFromTriple (tripleOf arch vendor "mingw32") =
        osFromTriple (tripleOf arch vendor "windows-gnu") ↔
      ∃ e ∈ beforeWindows, Mentions arch vendor e := by
  rw [osFromTriple_mingw32, osFromTriple_windows_gnu, ← firstMatch_beforeMingw,
    exists_beforeWindows_iff]
  have hnone := firstMatch_beforeMingw_eq_none_iff arch vendor
  cases h : firstMatch beforeMingw (lower (tripleOf arch vendor "mingw32")) with
  | some os =>
      refine iff_of_true rfl (Or.inl ?_)
      by_contra hex
      rw [hnone.mpr hex] at h
      exact nomatch h
  | none =>
      rw [or_iff_right (hnone.mp h), Option.getD_none, Option.getD_none]
      split
      · rename_i hm
        exact iff_of_true rfl hm
      · rename_i hm
        exact iff_of_false (by decide) hm

variable {arch vendor}

/-- A keyword does not occur in two empty fields. -/
theorem Mentions.ne_nil {e : LuaString × OsName} (he : e ∈ osmap) (h : Mentions arch vendor e) :
    arch ≠ [] ∨ vendor ≠ [] := by
  by_contra hnil
  simp only [not_or, not_not] at hnil
  obtain ⟨rfl, rfl⟩ := hnil
  have hkey : e.1 = [] := by
    rcases h with h | h <;> exact List.infix_nil.mp h
  exact (osmap_keys e he).1 hkey

/-- The arch comes from one of the two fields, unless both are empty. -/
theorem archFromTriple_tripleOf (harch : '-' ∉ arch) (hvendor : '-' ∉ vendor)
    (hne : arch ≠ [] ∨ vendor ≠ []) (system system' : LuaString) :
    archFromTriple (tripleOf arch vendor system) =
      archFromTriple (tripleOf arch vendor system') := by
  unfold tripleOf
  by_cases hnil : arch = []
  · subst hnil
    have hv := hne.resolve_left (not_not.mpr rfl)
    rw [List.nil_append, List.nil_append, archFromTriple_cons, archFromTriple_cons,
      archFromTriple_append hv hvendor, archFromTriple_append hv hvendor]
  · rw [archFromTriple_append hnil harch, archFromTriple_append hnil harch]

end Spellings

/-- **When the two spellings are built alike.** `mingw32` and `windows-gnu` name one system, but the
second contains `windows` and not `mingw`. The targets are built alike exactly when a keyword that is
tried before `windows` occurs in the arch or the vendor. -/
theorem windows_spellings_iff (c c' : Conf) (hplat : c.plat = .cross) (hplat' : c'.plat = .cross)
    (arch vendor : LuaString) (harch : '-' ∉ arch) (hvendor : '-' ∉ vendor)
    (htri : triple c = some (tripleOf arch vendor "mingw32"))
    (htri' : triple c' = some (tripleOf arch vendor "windows-gnu")) :
    BuiltAlike c c' ↔ ∃ e ∈ beforeWindows, Mentions arch vendor e := by
  have hd := detect_of_driven (Or.inl hplat) htri
  have hd' := detect_of_driven (Or.inl hplat') htri'
  rw [builtAlike_iff, ← osFromTriple_spellings_iff]
  refine ⟨?_, ?_⟩
  · intro h
    rw [← hd.1, ← hd'.1]
    exact h.os
  · intro hos
    obtain ⟨e, he, hm⟩ := (osFromTriple_spellings_iff arch vendor).mp hos
    have hin : e ∈ osmap := (List.takeWhile_sublist _).subset he
    exact sameClass_of_describes hd hd' hos
      (archFromTriple_tripleOf harch hvendor (hm.ne_nil hin) _ _)

/-- With no keyword in arch and vendor, whatever their letter case, the systems are told apart. -/
theorem osFromTriple_spellings_differ {arch vendor : LuaString}
    (h : ∀ e ∈ osmap, ¬ Mentions arch vendor e) :
    osFromTriple (tripleOf arch vendor "mingw32") = .mingw ∧
      osFromTriple (tripleOf arch vendor "windows-gnu") = .windows := by
  have hnone : firstMatch beforeMingw (lower (tripleOf arch vendor "mingw32")) = none := by
    rw [firstMatch_beforeMingw_eq_none_iff]
    rintro ⟨e, he, hm⟩
    exact h e (beforeMingw_subset he) hm
  rw [osFromTriple_mingw32, osFromTriple_windows_gnu, ← firstMatch_beforeMingw, hnone]
  refine ⟨rfl, if_neg (not_or.mpr ⟨h _ (by simp [osmap]), h _ (by simp [osmap])⟩)⟩

/-- A vendor in capitals that names a system decides for both spellings. -/
theorem windows_spellings_apple :
    BuiltAlike ⟨.cross, "", .nil, some "x86_64-APPLE-mingw32", .clang, false⟩
      ⟨.cross, "", .nil, some "x86_64-APPLE-windows-gnu", .clang, false⟩ :=
  (windows_spellings_iff _ _ rfl rfl "x86_64" "APPLE" (by decide) (by decide) rfl rfl).mpr
    ⟨("apple", .macos), by simp [beforeWindows, osmap], Or.inr (by decide)⟩

/-- With the vendor `w64`, one is taken for mingw and the other for Windows proper. -/
theorem windows_spellings_fail :
    ¬ ∀ (c c' : Conf) (arch vendor : LuaString), c.plat = .cross → c'.plat = .cross →
      '-' ∉ arch → '-' ∉ vendor → (∀ e ∈ osmap, ¬ e.1 <:+: arch ∧ ¬ e.1 <:+: vendor) →
      triple c = some (tripleOf arch vendor "mingw32") →
      triple c' = some (tripleOf arch vendor "windows-gnu") → BuiltAlike c c' := by
  intro h
  have halike := h ⟨.cross, "", .nil, some "x86_64-w64-mingw32", .clang, false⟩
    ⟨.cross, "", .nil, some "x86_64-w64-windows-gnu", .clang, false⟩ "x86_64" "w64" rfl rfl
    (by decide) (by decide) (by decide) rfl rfl
  exact absurd halike.1.os (by decide)

end IbSys.Build
