/-
# IbSys.Lib.ElfNote -- note sections of ELF files

A note is three words (the sizes of its name and of its description, and its type), the name and the
description, each padded to a multiple of four bytes. `parse_eq_some_iff` says which bytes are a note, with
nothing assumed of the padding; a section is a sequence of notes, and sections may be put one behind the
other (`parseAll_append`), as a linker does with those of its inputs.
-/
import Mathlib

namespace ElfNote

abbrev Byte := BitVec 8

inductive ByteOrder where
  | little
  | big
  deriving DecidableEq

/-! ## Words -/

/-- The bytes of a word. -/
def word (o : ByteOrder) (v : BitVec 32) : List Byte :=
  let bytes := [v.extractLsb' 0 8, v.extractLsb' 8 8, v.extractLsb' 16 8, v.extractLsb' 24 8]
  match o with
  | .little => bytes
  | .big => bytes.reverse

@[simp] theorem length_word (o : ByteOrder) (v : BitVec 32) : (word o v).length = 4 := by
  cases o <;> rfl

def readWord (o : ByteOrder) : List Byte → Option (BitVec 32 × List Byte)
  | a :: b :: c :: d :: rest =>
      match o with
      | .little => some (d ++ c ++ b ++ a, rest)
      | .big => some (a ++ b ++ c ++ d, rest)
  | _ => none

theorem append_extract (v : BitVec 32) :
    v.extractLsb' 24 8 ++ v.extractLsb' 16 8 ++ v.extractLsb' 8 8 ++ v.extractLsb' 0 8 = v := by
  apply BitVec.eq_of_getLsbD_eq
  intro i hi
  simp only [BitVec.getLsbD_append, BitVec.getLsbD_extractLsb']
  grind

theorem extract_append (a b c d : Byte) :
    (a ++ b ++ c ++ d).extractLsb' 24 8 = a ∧ (a ++ b ++ c ++ d).extractLsb' 16 8 = b ∧
      (a ++ b ++ c ++ d).extractLsb' 8 8 = c ∧ (a ++ b ++ c ++ d).extractLsb' 0 8 = d := by
  refine ⟨?_, ?_, ?_, ?_⟩
  all_goals
    apply BitVec.eq_of_getLsbD_eq
    intro i hi
    simp only [BitVec.getLsbD_append, BitVec.getLsbD_extractLsb']
    grind

/-- A word is read exactly where its bytes are. -/
theorem readWord_eq_some_iff {o : ByteOrder} {bs rest : List Byte} {v : BitVec 32} :
    readWord o bs = some (v, rest) ↔ bs = word o v ++ rest := by
  constructor
  · intro h
    unfold readWord at h
    split at h
    · rename_i a b c d rest'
      cases o with
      | little =>
          obtain ⟨rfl, rfl⟩ := Prod.mk.inj (Option.some.inj h)
          obtain ⟨h₃, h₂, h₁, h₀⟩ := extract_append d c b a
          simp only [word, h₃, h₂, h₁, h₀, List.cons_append, List.nil_append]
      | big =>
          obtain ⟨rfl, rfl⟩ := Prod.mk.inj (Option.some.inj h)
          obtain ⟨h₃, h₂, h₁, h₀⟩ := extract_append a b c d
          simp [word, h₃, h₂, h₁, h₀]
    · exact nomatch h
  · rintro rfl
    cases o with
    | little => exact congrArg some (Prod.ext (append_extract v) rfl)
    | big => exact congrArg some (Prod.ext (append_extract v) rfl)

/-! ## Padded fields -/

/-- The next multiple of four. -/
def padded (n : Nat) : Nat := (n + 3) / 4 * 4

theorem le_padded (n : Nat) : n ≤ padded n := by
  unfold padded
  omega

/-- A name or a description: its size is a word. -/
abbrev Field := { bs : List Byte // bs.length < 2 ^ 32 }

def Field.size (f : Field) : BitVec 32 := BitVec.ofNat 32 f.1.length

theorem Field.toNat_size (f : Field) : f.size.toNat = f.1.length := by
  rw [Field.size, BitVec.toNat_ofNat, Nat.mod_eq_of_lt f.2]

/-- Read a field of the given size, and skip its padding. -/
def readField (size : BitVec 32) (bs : List Byte) : Option (Field × List Byte) :=
  if padded size.toNat ≤ bs.length then
    some (⟨bs.take size.toNat, lt_of_le_of_lt (List.length_take_le _ _) size.isLt⟩,
      bs.drop (padded size.toNat))
  else none

/-- A field is read where its bytes are followed by as much padding as it needs, whatever that is. -/
theorem readField_eq_some_iff {size : BitVec 32} {bs rest : List Byte} {f : Field} :
    readField size bs = some (f, rest) ↔
      f.size = size ∧ ∃ pad, pad.length = padded f.1.length - f.1.length ∧
        bs = f.1 ++ pad ++ rest := by
  constructor
  · intro h
    unfold readField at h
    split at h
    · rename_i hle
      obtain ⟨rfl, rfl⟩ := Prod.mk.inj (Option.some.inj h)
      have hlen : (bs.take size.toNat).length = size.toNat :=
        List.length_take_of_le ((le_padded _).trans hle)
      refine ⟨?_, (bs.drop size.toNat).take (padded size.toNat - size.toNat), ?_, ?_⟩
      · rw [Field.size, hlen, BitVec.ofNat_toNat, BitVec.setWidth_eq]
      · rw [hlen, List.length_take_of_le]
        rw [List.length_drop]
        omega
      · have hrest : bs.drop (padded size.toNat) =
            (bs.drop size.toNat).drop (padded size.toNat - size.toNat) := by
          rw [List.drop_drop, Nat.add_sub_cancel' (le_padded _)]
        rw [hrest, List.append_assoc, List.take_append_drop, List.take_append_drop]
    · exact nomatch h
  · rintro ⟨rfl, pad, hpad, rfl⟩
    have hsum : f.1.length + pad.length = padded f.1.length := by
      have := le_padded f.1.length
      omega
    have hle : padded f.size.toNat ≤ (f.1 ++ pad ++ rest).length := by
      rw [f.toNat_size, List.length_append, List.length_append]
      omega
    rw [readField, if_pos hle]
    congr 2
    · apply Subtype.ext
      show (f.1 ++ pad ++ rest).take f.size.toNat = f.1
      rw [f.toNat_size, List.append_assoc, List.take_left]
    · rw [f.toNat_size, ← hsum, ← List.length_append, List.drop_left]

/-! ## Notes -/

/-- One note. -/
structure Note where
  name : Field
  type : BitVec 32
  desc : Field
  deriving DecidableEq

/-- Read one note. -/
def parse (o : ByteOrder) (bs : List Byte) : Option (Note × List Byte) := do
  let (namesz, bs) ← readWord o bs
  let (descsz, bs) ← readWord o bs
  let (type, bs) ← readWord o bs
  let (name, bs) ← readField namesz bs
  let (desc, bs) ← readField descsz bs
  some (⟨name, type, desc⟩, bs)

/-- **One note** is read exactly from the three words, the name and the description, with the padding that
the sizes ask for. -/
theorem parse_eq_some_iff {o : ByteOrder} {bs rest : List Byte} {n : Note} :
    parse o bs = some (n, rest) ↔
      ∃ p q, p.length = padded n.name.1.length - n.name.1.length ∧
        q.length = padded n.desc.1.length - n.desc.1.length ∧
        bs = word o n.name.size ++ (word o n.desc.size ++ (word o n.type ++
          (n.name.1 ++ p ++ (n.desc.1 ++ q ++ rest)))) := by
  constructor
  · intro h
    simp only [parse, Option.bind_eq_bind, Option.bind_eq_some_iff, Prod.exists, Option.some.injEq,
      Prod.mk.injEq] at h
    obtain ⟨namesz, b₁, h₁, descsz, b₂, h₂, type, b₃, h₃, name, b₄, h₄, desc, b₅, h₅, rfl, rfl⟩ := h
    obtain ⟨rfl, p, hp, rfl⟩ := readField_eq_some_iff.mp h₄
    obtain ⟨rfl, q, hq, rfl⟩ := readField_eq_some_iff.mp h₅
    rw [readWord_eq_some_iff] at h₁ h₂ h₃
    exact ⟨p, q, hp, hq, by rw [h₁, h₂, h₃]⟩
  · rintro ⟨p, q, hp, hq, rfl⟩
    have hword : ∀ v rest, readWord o (word o v ++ rest) = some (v, rest) :=
      fun v rest => readWord_eq_some_iff.mpr rfl
    have hname : ∀ rest, readField n.name.size (n.name.1 ++ p ++ rest) = some (n.name, rest) :=
      fun rest => readField_eq_some_iff.mpr ⟨rfl, p, hp, rfl⟩
    have hdesc : readField n.desc.size (n.desc.1 ++ q ++ rest) = some (n.desc, rest) :=
      readField_eq_some_iff.mpr ⟨rfl, q, hq, rfl⟩
    simp only [parse, hword, hname, hdesc, Option.bind_eq_bind, Option.bind_some]

/-! ## Sections -/

/-- Read at most `k` notes, which have to use up all bytes. -/
def parseFuel (o : ByteOrder) : Nat → List Byte → Option (List Note)
  | _, [] => some []
  | 0, _ :: _ => none
  | k + 1, b :: bs =>
      match parse o (b :: bs) with
      | some (n, rest) => (parseFuel o k rest).map (n :: ·)
      | none => none

/-- Read a section. A note takes twelve bytes at least, so there are fewer notes than bytes. -/
def parseAll (o : ByteOrder) (bs : List Byte) : Option (List Note) := parseFuel o bs.length bs

theorem parse_append {o : ByteOrder} {bs rest : List Byte} {n : Note} (h : parse o bs = some (n, rest))
    (ys : List Byte) : parse o (bs ++ ys) = some (n, rest ++ ys) := by
  obtain ⟨p, q, hp, hq, rfl⟩ := parse_eq_some_iff.mp h
  exact parse_eq_some_iff.mpr ⟨p, q, hp, hq, by simp only [List.append_assoc]⟩

theorem parse_length {o : ByteOrder} {bs rest : List Byte} {n : Note}
    (h : parse o bs = some (n, rest)) : rest.length + 12 ≤ bs.length := by
  obtain ⟨p, q, -, -, rfl⟩ := parse_eq_some_iff.mp h
  simp only [List.length_append, length_word]
  omega

/-- More fuel reads the same notes. -/
theorem parseFuel_mono {o : ByteOrder} {k k' : Nat} {bs : List Byte} {ns : List Note} (hk : k ≤ k')
    (h : parseFuel o k bs = some ns) : parseFuel o k' bs = some ns := by
  induction k generalizing k' bs ns with
  | zero =>
      cases bs with
      | nil => cases k' <;> exact h
      | cons b bs => exact nomatch h
  | succ k ih =>
      cases bs with
      | nil => cases k' <;> exact h
      | cons b bs =>
          cases k' with
          | zero => omega
          | succ k' =>
              simp only [parseFuel] at h ⊢
              cases hp : parse o (b :: bs) with
              | none => simp [hp] at h
              | some r =>
                  obtain ⟨n, rest⟩ := r
                  simp only [hp, Option.map_eq_some_iff] at h ⊢
                  obtain ⟨ns, hns, rfl⟩ := h
                  exact ⟨ns, ih (by omega) hns, rfl⟩

theorem parseFuel_append {o : ByteOrder} {k j : Nat} {xs ys : List Byte} {ns ms : List Note}
    (hx : parseFuel o k xs = some ns) (hy : parseFuel o j ys = some ms) :
    parseFuel o (k + j) (xs ++ ys) = some (ns ++ ms) := by
  induction k generalizing xs ns with
  | zero =>
      cases xs with
      | nil =>
          obtain rfl : [] = ns := Option.some.inj hx
          rw [Nat.zero_add]
          exact hy
      | cons b bs => exact nomatch hx
  | succ k ih =>
      cases xs with
      | nil =>
          obtain rfl : [] = ns := Option.some.inj hx
          exact parseFuel_mono (by omega) hy
      | cons b bs =>
          simp only [parseFuel] at hx
          cases hp : parse o (b :: bs) with
          | none => simp [hp] at hx
          | some r =>
              obtain ⟨n, rest⟩ := r
              simp only [hp, Option.map_eq_some_iff] at hx
              obtain ⟨ns, hns, rfl⟩ := hx
              rw [show k + 1 + j = k + j + 1 by omega, List.cons_append, parseFuel,
                ← List.cons_append, parse_append hp]
              simp only [ih hns, Option.map_some, List.cons_append]

/-- **Sections** may be put one behind the other. -/
theorem parseAll_append {o : ByteOrder} {xs ys : List Byte} {ns ms : List Note}
    (hx : parseAll o xs = some ns) (hy : parseAll o ys = some ms) :
    parseAll o (xs ++ ys) = some (ns ++ ms) := by
  rw [parseAll, List.length_append]
  exact parseFuel_append hx hy

/-- A section of one note. -/
theorem parseAll_of_parse {o : ByteOrder} {bs : List Byte} {n : Note} (h : parse o bs = some (n, [])) :
    parseAll o bs = some [n] := by
  have hlen := parse_length h
  cases bs with
  | nil =>
      simp at hlen
  | cons b bs =>
      rw [parseAll, List.length_cons, parseFuel, h]
      cases bs.length <;> rfl

/-- The note of the given name and type that a reader of the section takes: the first one. -/
def find (name : List Byte) (type : BitVec 32) (ns : List Note) : Option Note :=
  ns.find? fun n => n.name.1 == name && n.type == type

end ElfNote
