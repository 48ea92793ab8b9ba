/-
# IbSys.Build.Systems -- the systems that triples name

Every key of `OSMAP` names a system. A triple that has the key as a field of its own, in any letter case and
with or without a version, is of that system, unless a key that is tried earlier occurs elsewhere in the
triple: then the earlier key decides (`detect_system`). The order of the table is what makes
`aarch64-linux-android23` an Android triple.
-/
import IbSys.Build.TripleClass

namespace IbSys.Build

open Keywords

/-- The keys that are tried before an entry. -/
def beforeKey (e : LuaString × OsName) : List (LuaString × OsName) := osmap.takeWhile (· ≠ e)

theorem beforeKey_subset (e : LuaString × OsName) : beforeKey e ⊆ osmap :=
  (List.takeWhile_sublist _).subset

/-- No key is hidden by an earlier one that occurs in it. -/
theorem beforeKey_not_occurs : ∀ e ∈ osmap, ∀ e' ∈ beforeKey e, ¬ e'.1 <:+: e.1 := by
  decide

theorem osmap_eq_append : ∀ e ∈ osmap, ∃ rest, osmap = beforeKey e ++ e :: rest := by
  intro e he
  have hdrop : osmap.dropWhile (· ≠ e) ≠ [] := by
    intro h
    have hall := List.dropWhile_eq_nil_iff.mp h e he
    simp at hall
  obtain ⟨e', rest, hrest⟩ := List.exists_cons_of_ne_nil hdrop
  have hhead := List.head_dropWhile_not (fun x => decide (x ≠ e)) hdrop
  simp only [hrest] at hhead
  obtain rfl : e' = e := not_not.mp (of_decide_eq_false hhead)
  refine ⟨rest, ?_⟩
  rw [← hrest]
  exact List.takeWhile_append_dropWhile.symm

section

variable (front env : LuaString) (henv : env = [] ∨ ∃ rest, env = '-' :: rest)
include henv

/-- A key occurs in a field or in the rest of the triple. -/
theorem occurs_field_iff {e : LuaString × OsName} (he : e ∈ osmap) (field : LuaString) :
    e.1 <:+: lower (front ++ '-' :: (field ++ env)) ↔
      e.1 <:+: lower field ∨ e.1 <:+: lower (front ++ env) := by
  rw [occurs_iff he]
  rcases henv with rfl | ⟨rest, rfl⟩
  · rw [List.append_nil, List.append_nil, or_comm]
  · rw [occurs_iff he, occurs_iff he]
    tauto

/-- **A triple with a system in it** is of this system, or of one whose key is tried earlier and occurs in
the rest of the triple. -/
theorem osFromTriple_system {e : LuaString × OsName} (he : e ∈ osmap) {key version : LuaString}
    (hkey : lower key = e.1) (hv : ∀ ch ∈ version, ch.isDigit = true ∨ ch = '.') :
    osFromTriple (front ++ '-' :: (key ++ version ++ env)) =
      (firstMatch (beforeKey e) (lower (front ++ env))).getD e.2 := by
  have hversion : ∀ e' ∈ osmap, (e'.1 <:+: lower (key ++ version) ↔ e'.1 <:+: e.1) := by
    intro e' he'
    rw [occurs_append_version_iff he' key hv, hkey]
  have hbefore : firstMatch (beforeKey e) (lower (front ++ '-' :: (key ++ version ++ env))) =
      firstMatch (beforeKey e) (lower (front ++ env)) := by
    apply firstMatch_congr
    intro e' he'
    have hin := beforeKey_subset e he'
    rw [occurs_field_iff front env henv hin, hversion e' hin]
    exact or_iff_right (beforeKey_not_occurs e he e' he')
  have hown : e.1 <:+: lower (front ++ '-' :: (key ++ version ++ env)) :=
    (occurs_field_iff front env henv he _).mpr (Or.inl ((hversion e he).mpr List.infix_rfl))
  obtain ⟨rest, hsplit⟩ := osmap_eq_append e he
  unfold osFromTriple
  rw [hsplit, firstMatch_append, hbefore, firstMatch, if_pos hown]
  cases firstMatch (beforeKey e) (lower (front ++ env)) <;> rfl

end

/-- **The system of a cross build.** -/
theorem detect_system (c : Conf) (hplat : c.plat = .cross) (front key version env : LuaString)
    (henv : env = [] ∨ ∃ rest, env = '-' :: rest) {e : LuaString × OsName} (he : e ∈ osmap)
    (hkey : lower key = e.1) (hv : ∀ ch ∈ version, ch.isDigit = true ∨ ch = '.')
    (htri : triple c = some (front ++ '-' :: (key ++ version ++ env))) :
    (detect c).os = (firstMatch (beforeKey e) (lower (front ++ env))).getD e.2 := by
  rw [(detect_of_driven (Or.inl hplat) htri).1]
  exact osFromTriple_system front env henv he hkey hv

/-- The cheat sheet's Android triple: `linux` occurs in it too, but is tried later. -/
theorem detect_system_android :
    (detect ⟨.cross, "", .nil, some "aarch64-linux-android23", .clang, false⟩).os = .android :=
  detect_system _ rfl "aarch64-linux" "android" "23" [] (Or.inl rfl) List.mem_cons_self (by decide)
    (by simp) rfl

end IbSys.Build
