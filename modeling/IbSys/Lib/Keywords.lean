/-
# IbSys.Lib.Keywords -- texts classified by the keywords that occur in them

A text is a list of letters. An ordered table of keywords gives a text the value of the first keyword
that occurs in it (`firstMatch`), so the value depends on which keywords occur and on nothing else
(`firstMatch_congr`). Two facts settle which ones do in a text put together from parts: letters that
a keyword does not have cannot make it occur (`infix_append_iff_of_foreign`), and a keyword without
the separator lies within one field (`infix_append_cons_iff`). `fields` are the non-empty ones.
-/
import Mathlib

namespace Keywords

variable {α β : Type}

/-! ## Occurrences -/

/-- A keyword has no letter of a part that is appended: it occurs as it did before. -/
theorem infix_append_iff_of_foreign {key xs ys : List α} (hne : key ≠ [])
    (hkey : ∀ c ∈ key, c ∉ ys) : key <:+: xs ++ ys ↔ key <:+: xs := by
  rw [List.infix_append_iff]
  refine ⟨?_, Or.inl⟩
  rintro (h | h | ⟨l₁, l₂, rfl, h₁, h₂⟩)
  · exact h
  · obtain ⟨c, hc⟩ := List.exists_mem_of_ne_nil key hne
    exact absurd (h.subset hc) (hkey c hc)
  · -- the part of the keyword that reaches into the appended letters is empty
    have hnil : l₂ = [] := by
      rw [List.eq_nil_iff_forall_not_mem]
      intro c hc
      exact hkey c (List.mem_append_right _ hc) (h₂.subset hc)
    rw [hnil, List.append_nil]
    exact h₁.isInfix

/-- A keyword without the separator occurs on one side of it. -/
theorem infix_append_cons_iff {key xs ys : List α} {sep : α} (hne : key ≠ []) (hkey : sep ∉ key) :
    key <:+: xs ++ sep :: ys ↔ key <:+: xs ∨ key <:+: ys := by
  have hone : ∀ c ∈ key, c ∉ [sep] := by
    intro c hc hsep
    rw [List.mem_singleton] at hsep
    exact hkey (hsep ▸ hc)
  have hstart : ∀ l, l <+: sep :: ys → sep ∉ l → l = [] := by
    intro l hl hsep
    cases l with
    | nil => rfl
    | cons c l =>
        obtain rfl := (List.cons_prefix_cons.mp hl).1
        exact absurd List.mem_cons_self hsep
  rw [List.infix_append_iff, List.infix_cons_iff]
  refine ⟨?_, ?_⟩
  · rintro (h | (h | h) | ⟨l₁, l₂, rfl, h₁, h₂⟩)
    · exact Or.inl h
    · exact absurd (hstart key h hkey) hne
    · exact Or.inr h
    · have hnil := hstart l₂ h₂ fun h => hkey (List.mem_append_right _ h)
      rw [hnil, List.append_nil]
      exact Or.inl h₁.isInfix
  · rintro (h | h)
    · exact Or.inl h
    · exact Or.inr (Or.inl (Or.inr h))

/-! ## The first keyword that occurs -/

variable [DecidableEq α]

/-- The value of the first keyword of the table that occurs in the text. -/
def firstMatch : List (List α × β) → List α → Option β
  | [], _ => none
  | (key, v) :: table, text => if key <:+: text then some v else firstMatch table text

theorem firstMatch_congr {table : List (List α × β)} {x y : List α}
    (h : ∀ e ∈ table, e.1 <:+: x ↔ e.1 <:+: y) : firstMatch table x = firstMatch table y := by
  induction table with
  | nil => rfl
  | cons e table ih =>
      obtain ⟨key, v⟩ := e
      have hkey : key <:+: x ↔ key <:+: y := h (key, v) List.mem_cons_self
      have hrest := ih fun e he => h e (List.mem_cons_of_mem _ he)
      simp only [firstMatch, hkey, hrest]

theorem firstMatch_append (table table' : List (List α × β)) (text : List α) :
    firstMatch (table ++ table') text = (firstMatch table text).or (firstMatch table' text) := by
  induction table with
  | nil => rfl
  | cons e table ih =>
      obtain ⟨key, v⟩ := e
      simp only [List.cons_append, firstMatch]
      split
      · rfl
      · exact ih

theorem firstMatch_eq_none_iff {table : List (List α × β)} {text : List α} :
    firstMatch table text = none ↔ ∀ e ∈ table, ¬ e.1 <:+: text := by
  induction table with
  | nil => simp [firstMatch]
  | cons e table ih =>
      obtain ⟨key, v⟩ := e
      rw [List.forall_mem_cons, ← ih, firstMatch]
      by_cases hkey : key <:+: text <;> simp [hkey]

/-! ## Fields -/

/-- The non-empty fields between separators, in order. -/
def fields (sep : α) (text : List α) : List (List α) :=
  (text.splitOn sep).filter fun f => f ≠ []

theorem fields_append_cons {sep : α} {xs : List α} (hne : xs ≠ []) (hsep : sep ∉ xs)
    (ys : List α) : fields sep (xs ++ sep :: ys) = xs :: fields sep ys := by
  unfold fields
  rw [List.splitOn_append_cons_self_of_not_mem hsep, List.filter_cons_of_pos (by simpa using hne)]

/-- A separator in front adds an empty field only. -/
theorem fields_cons_self (sep : α) (ys : List α) : fields sep (sep :: ys) = fields sep ys := by
  have hsplit : (sep :: ys).splitOn sep = [] :: ys.splitOn sep :=
    List.splitOn_append_cons_self_of_not_mem List.not_mem_nil ys
  unfold fields
  rw [hsplit, List.filter_cons_of_neg (by simp)]

end Keywords
