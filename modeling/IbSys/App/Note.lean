/-
# IbSys.App.Note -- the notes that mark the program's system

The BSDs tell by a note in the file which system, and which release of it, a program is for. `crt.cpp` lays
the note out by hand, as a struct of words around a name of eight characters: three of them for FreeBSD, one
for OpenBSD and for NetBSD. `abiNote_found` is what this is for: wherever a linker puts the section between
the note sections of other inputs, and in either byte order, a reader finds each tag with its value, unless
an earlier input has a note of the same name and type.
-/
import IbSys.Lib.ElfNote
import IbSys.Target

namespace IbSys

open ElfNote

/-! ## Tags -/

/-- `struct { u32 namesz; u32 descsz; u32 type; char name[8]; u32 version; }`. The last member is named
for what the tag says. -/
structure Tag where
  namesz : BitVec 32
  descsz : BitVec 32
  type : BitVec 32
  name : List Byte
  value : BitVec 32
  name_length : name.length = 8 := by decide

namespace Tag

/-- The object representation: the members have no padding between them. -/
def bytes (o : ByteOrder) (t : Tag) : List Byte :=
  word o t.namesz ++ (word o t.descsz ++ (word o t.type ++ (t.name ++ word o t.value)))

/-- The sizes fit the layout: one word of description, and a name that is padded to eight. -/
def WellSized (t : Tag) : Prop := t.descsz = 4 ∧ padded t.namesz.toNat = 8

instance (t : Tag) : Decidable t.WellSized := inferInstanceAs (Decidable (_ ∧ _))

/-- The note that the tag stands for. -/
def note (o : ByteOrder) (t : Tag) : Note where
  name := ⟨t.name.take t.namesz.toNat, lt_of_le_of_lt (List.length_take_le _ _) t.namesz.isLt⟩
  type := t.type
  desc := ⟨word o t.value, by rw [length_word]; decide⟩

/-- **One tag** is read as its note, whatever follows it. -/
theorem parse_bytes {t : Tag} (ht : t.WellSized) (o : ByteOrder) (rest : List Byte) :
    parse o (t.bytes o ++ rest) = some (t.note o, rest) := by
  obtain ⟨hdesc, hname⟩ := ht
  have hle : t.namesz.toNat ≤ t.name.length := by
    rw [t.name_length, ← hname]
    exact le_padded _
  have hlen : (t.note o).name.1.length = t.namesz.toNat := List.length_take_of_le hle
  have hsize : (t.note o).name.size = t.namesz := by
    rw [Field.size, hlen, BitVec.ofNat_toNat, BitVec.setWidth_eq]
  have hdsize : (t.note o).desc.size = t.descsz := by
    rw [hdesc, Field.size, show (t.note o).desc.1.length = 4 from length_word o t.value]
    rfl
  -- the padding of the name is the rest of the eight characters
  refine parse_eq_some_iff.mpr ⟨t.name.drop t.namesz.toNat, [], ?_, ?_, ?_⟩
  · rw [hlen, hname, List.length_drop, t.name_length]
  · rw [show (t.note o).desc.1.length = 4 from length_word o t.value]
    rfl
  · rw [hsize, hdsize, show (t.note o).name.1 = t.name.take t.namesz.toNat from rfl,
      List.take_append_drop]
    simp only [bytes, note, List.append_assoc, List.append_nil]

theorem note_value (o : ByteOrder) (t : Tag) : readWord o (t.note o).desc.1 = some (t.value, []) :=
  readWord_eq_some_iff.mpr (List.append_nil _).symm

/-- **A section of tags** is read as their notes. -/
theorem parseAll_bytes {o : ByteOrder} {ts : List Tag} (h : ∀ t ∈ ts, t.WellSized) :
    parseAll o (ts.flatMap (bytes o)) = some (ts.map (note o)) := by
  induction ts with
  | nil => rfl
  | cons t ts ih =>
      have hone : parseAll o (t.bytes o) = some [t.note o] := by
        apply parseAll_of_parse
        rw [← List.append_nil (t.bytes o)]
        exact parse_bytes (h t List.mem_cons_self) o []
      have hrest := ih fun t' ht' => h t' (List.mem_cons_of_mem _ ht')
      rw [List.flatMap_cons, List.map_cons, ← List.singleton_append]
      exact parseAll_append hone hrest

end Tag

/-! ## `ib_abi_note` -/

/-- The characters of a string literal, with as many NULs as fill the array. -/
def chars (s : String) (n : Nat) : List Byte :=
  (s.toList.map fun c => BitVec.ofNat 8 c.toNat) ++ List.replicate (n - s.length) 0

namespace Freebsd

def noteNamesz : BitVec 32 := 8
def noteDescsz : BitVec 32 := 4
def noteAbiTag : BitVec 32 := 1
def noteNoinitTag : BitVec 32 := 2
def noteFeatureCtlTag : BitVec 32 := 4

/-- 12.3-RELEASE -/
def noteVersion : BitVec 32 := 1203000

def abiTag : Tag where
  namesz := noteNamesz
  descsz := noteDescsz
  type := noteAbiTag
  name := chars "FreeBSD" 8
  value := noteVersion

def noinitTag : Tag where
  namesz := noteNamesz
  descsz := noteDescsz
  type := noteNoinitTag
  name := chars "FreeBSD" 8
  value := 0

def featureCtlTag : Tag where
  namesz := noteNamesz
  descsz := noteDescsz
  type := noteFeatureCtlTag
  name := chars "FreeBSD" 8
  value := 0

end Freebsd

namespace Openbsd

def identTag : Tag where
  namesz := 8
  descsz := 4
  type := 1
  name := chars "OpenBSD" 8
  value := 0

end Openbsd

namespace Netbsd

/-- The name has seven characters with its NUL; an eighth fills the array. The version is 7.0. -/
def identTag : Tag where
  namesz := 7
  descsz := 4
  type := 1
  name := chars "NetBSD" 8
  value := 700000000

end Netbsd

/-- The members of `ib_abi_note`, where there is one. -/
def abiNote : Os → List Tag
  | .freebsd => [Freebsd.abiTag, Freebsd.noinitTag, Freebsd.featureCtlTag]
  | .openbsd => [Openbsd.identTag]
  | .netbsd => [Netbsd.identTag]
  | .linux | .dragonfly | .macos | .solaris => []

theorem abiNote_wellSized (os : Os) : ∀ t ∈ abiNote os, t.WellSized := by
  cases os <;> decide

/-- No two tags of a program have the same name and type. -/
theorem abiNote_pairwise (os : Os) :
    (abiNote os).Pairwise fun t t' => (t.name.take t.namesz.toNat, t.type) ≠
      (t'.name.take t'.namesz.toNat, t'.type) := by
  cases os <;> decide

/-- The section of the start code. -/
def noteSection (os : Os) (o : ByteOrder) : List Byte := (abiNote os).flatMap (Tag.bytes o)

/-- The first note of a name and type is not looked for in front of those that have none. -/
theorem find_append_of_absent {name : List Byte} {type : BitVec 32} {ns ms : List Note}
    (h : ∀ n ∈ ns, ¬ (n.name.1 = name ∧ n.type = type)) :
    ElfNote.find name type (ns ++ ms) = ElfNote.find name type ms := by
  have hnone : ns.find? (fun n => n.name.1 == name && n.type == type) = none := by
    rw [List.find?_eq_none]
    intro n hn
    simpa using h n hn
  rw [ElfNote.find, List.find?_append, hnone, Option.none_or, ElfNote.find]

/-- In the notes of tags that differ in name or type, each is found. -/
theorem find_note {o : ByteOrder} {ts : List Tag}
    (hts : ts.Pairwise fun t t' => (t.name.take t.namesz.toNat, t.type) ≠
      (t'.name.take t'.namesz.toNat, t'.type)) {t : Tag} (ht : t ∈ ts) (ms : List Note) :
    ElfNote.find (t.note o).name.1 t.type (ts.map (Tag.note o) ++ ms) = some (t.note o) := by
  induction ts with
  | nil => exact absurd ht List.not_mem_nil
  | cons t' ts ih =>
      rw [List.pairwise_cons] at hts
      rcases List.mem_cons.mp ht with rfl | htail
      · simp [ElfNote.find, Tag.note]
      · have hne : ¬ ((t'.note o).name.1 = (t.note o).name.1 ∧ (t'.note o).type = t.type) :=
          fun h => hts.1 t htail (Prod.ext h.1 h.2)
        rw [List.map_cons, List.cons_append, ← List.singleton_append, find_append_of_absent]
        · exact ih hts.2 htail
        · intro n hn
          rwa [List.mem_singleton.mp hn]

/-- **The tags are found.** Wherever the section of the start code ends up between the notes of other
inputs, and in either byte order, it is read as notes, and each tag is found with its value, unless a note
in front of it has the same name and type. -/
theorem abiNote_found (os : Os) (o : ByteOrder) {pre post : List Byte} {ns ms : List Note}
    (hpre : parseAll o pre = some ns) (hpost : parseAll o post = some ms) {t : Tag}
    (ht : t ∈ abiNote os) (hnew : ∀ n ∈ ns, ¬ (n.name.1 = (t.note o).name.1 ∧ n.type = t.type)) :
    ∃ notes, parseAll o (pre ++ noteSection os o ++ post) = some notes ∧
      ElfNote.find (t.note o).name.1 t.type notes = some (t.note o) ∧
      readWord o (t.note o).desc.1 = some (t.value, []) := by
  have hown := Tag.parseAll_bytes (o := o) (abiNote_wellSized os)
  refine ⟨ns ++ (abiNote os).map (Tag.note o) ++ ms, ?_, ?_, t.note_value o⟩
  · exact parseAll_append (parseAll_append hpre hown) hpost
  · rw [List.append_assoc, find_append_of_absent hnew]
    exact find_note (abiNote_pairwise os) ht ms

/-- A big-endian FreeBSD program, behind an input that has a NetBSD note: the release is found. -/
theorem abiNote_found_freebsd :
    ∃ notes, parseAll .big (noteSection .netbsd .big ++ noteSection .freebsd .big ++ []) = some notes ∧
      ElfNote.find (Freebsd.abiTag.note .big).name.1 1 notes = some (Freebsd.abiTag.note .big) ∧
      readWord .big (Freebsd.abiTag.note .big).desc.1 = some (1203000, []) :=
  abiNote_found .freebsd .big (Tag.parseAll_bytes (abiNote_wellSized .netbsd)) rfl
    (List.mem_cons_self) (by decide)

end IbSys
