/-
# IbSys.Lib.Memory -- byte-addressed memory of a `w`-bit machine

A memory maps every `w`-bit address to a byte. One machine word is `w / 8` consecutive bytes, read
low byte first (`loadLE`) or high byte first (`loadBE`), and written low byte first (`storeLE`).
Addresses wrap around, as the hardware's do, so no result below assumes that an access stays clear
of the end of the address space: disjointness is stated through the offset `x - a`.

The three facts the machine model rests on are the read-back `loadLE_storeLE`, the frame
`loadLE_storeLE_of_disjoint`, and `storeLE_eq_self_iff`: a store leaves the memory as it was
exactly when the word it writes is already there.
-/
import Mathlib

namespace ByteMemory

/-- Memory of a machine with `w`-bit addresses: total, one byte an address. -/
abbrev Mem (w : Nat) := BitVec w → BitVec 8

variable {w : Nat}

/-! ## Accesses of one machine word -/

/-- The word at `a`, low byte first. -/
def loadLE (m : Mem w) (a : BitVec w) : BitVec w :=
  BitVec.ofFnLE fun j : Fin w => (m (a + BitVec.ofNat w (j / 8))).getLsbD (j % 8)

/-- The word at `a`, high byte first. -/
def loadBE (m : Mem w) (a : BitVec w) : BitVec w :=
  BitVec.ofFnLE fun j : Fin w => (m (a + BitVec.ofNat w (w / 8 - 1 - j / 8))).getLsbD (j % 8)

/-- Write the word `v` at `a`, low byte first. -/
def storeLE (m : Mem w) (a v : BitVec w) : Mem w := fun x =>
  if (x - a).toNat < w / 8 then v.extractLsb' (8 * (x - a).toNat) 8 else m x

theorem getLsbD_loadLE (m : Mem w) (a : BitVec w) {j : Nat} (hj : j < w) :
    (loadLE m a).getLsbD j = (m (a + BitVec.ofNat w (j / 8))).getLsbD (j % 8) := by
  rw [loadLE, BitVec.getLsbD_ofFnLE, dif_pos hj]

/-- The offset of the `i`-th byte of an access is `i`: a word is far smaller than the memory. -/
theorem toNat_add_ofNat_sub (a : BitVec w) {i : Nat} (hi : i < 2 ^ w) :
    (a + BitVec.ofNat w i - a).toNat = i := by
  rw [BitVec.add_comm, BitVec.add_sub_cancel, BitVec.toNat_ofNat, Nat.mod_eq_of_lt hi]

theorem div_eight_lt_two_pow (w : Nat) : w / 8 < 2 ^ w :=
  Nat.lt_of_le_of_lt (Nat.div_le_self w 8) Nat.lt_two_pow_self

theorem storeLE_byte (m : Mem w) (a v : BitVec w) {i : Nat} (hi : i < w / 8) :
    storeLE m a v (a + BitVec.ofNat w i) = v.extractLsb' (8 * i) 8 := by
  have hlt : i < 2 ^ w := hi.trans (div_eight_lt_two_pow w)
  simp only [storeLE, toNat_add_ofNat_sub a hlt, if_pos hi]

/-- Frame for one byte: outside the written word the memory is untouched. -/
theorem storeLE_of_outside (m : Mem w) (a v : BitVec w) {x : BitVec w}
    (hx : w / 8 ≤ (x - a).toNat) : storeLE m a v x = m x := by
  simp only [storeLE, if_neg (Nat.not_lt.mpr hx)]

/-! ## Reading -/

/-- A load reads only the bytes of its word. -/
theorem loadLE_congr {m m' : Mem w} {a a' : BitVec w} (hw : 8 ∣ w)
    (h : ∀ i, i < w / 8 → m (a + BitVec.ofNat w i) = m' (a' + BitVec.ofNat w i)) :
    loadLE m a = loadLE m' a' := by
  apply BitVec.eq_of_getLsbD_eq
  intro j hj
  have hdiv : j / 8 < w / 8 := by omega
  rw [getLsbD_loadLE m a hj, getLsbD_loadLE m' a' hj, h _ hdiv]

/-- Equal words have equal bytes. -/
theorem byte_eq_of_loadLE_eq {m m' : Mem w} {a a' : BitVec w}
    (h : loadLE m a = loadLE m' a') {i : Nat} (hi : i < w / 8) :
    m (a + BitVec.ofNat w i) = m' (a' + BitVec.ofNat w i) := by
  apply BitVec.eq_of_getLsbD_eq
  intro j hj
  have hlt : 8 * i + j < w := by omega
  have hbit := congrArg (fun v => v.getLsbD (8 * i + j)) h
  simp only [getLsbD_loadLE _ _ hlt] at hbit
  rwa [show (8 * i + j) / 8 = i by omega, show (8 * i + j) % 8 = j by omega] at hbit

/-- Memory filled with one bit holds the words filled with that bit. -/
theorem loadLE_fill (b : Bool) (a : BitVec w) :
    loadLE (fun _ => BitVec.fill 8 b) a = BitVec.fill w b := by
  apply BitVec.eq_of_getLsbD_eq
  intro j hj
  have hmod : j % 8 < 8 := Nat.mod_lt j (by decide)
  rw [getLsbD_loadLE _ a hj, BitVec.getLsbD_fill, BitVec.getLsbD_fill]
  simp [hj, hmod]

/-! ## Reading after writing -/

/-- A stored word is read back. -/
theorem loadLE_storeLE (m : Mem w) (a v : BitVec w) (hw : 8 ∣ w) :
    loadLE (storeLE m a v) a = v := by
  apply BitVec.eq_of_getLsbD_eq
  intro j hj
  have hdiv : j / 8 < w / 8 := by omega
  rw [getLsbD_loadLE _ _ hj, storeLE_byte m a v hdiv, BitVec.getLsbD_extractLsb',
    show 8 * (j / 8) + j % 8 = j by omega]
  simp only [show j % 8 < 8 by omega, decide_true, Bool.true_and]

/-- Frame for one word: a load that starts `d` bytes above a store does not see it, as long as the
two words do not overlap (around the end of the address space included). -/
theorem loadLE_storeLE_of_disjoint (m : Mem w) (a b v : BitVec w) (hw : 8 ∣ w)
    (hlo : w / 8 ≤ (b - a).toNat) (hhi : (b - a).toNat + w / 8 ≤ 2 ^ w) :
    loadLE (storeLE m a v) b = loadLE m b := by
  apply loadLE_congr hw
  intro i hi
  apply storeLE_of_outside
  have hlt : i < 2 ^ w := hi.trans (div_eight_lt_two_pow w)
  have hoff : b + BitVec.ofNat w i - a = (b - a) + BitVec.ofNat w i := by
    rw [BitVec.sub_eq_add_neg, BitVec.sub_eq_add_neg, BitVec.add_assoc, BitVec.add_assoc,
      BitVec.add_comm (BitVec.ofNat w i)]
  rw [hoff, BitVec.toNat_add, BitVec.toNat_ofNat, Nat.mod_eq_of_lt hlt,
    Nat.mod_eq_of_lt (by omega)]
  omega

/-- A store changes nothing exactly when the word it writes is the word already there. -/
theorem storeLE_eq_self_iff (m : Mem w) (a v : BitVec w) (hw : 8 ∣ w) :
    storeLE m a v = m ↔ loadLE m a = v := by
  constructor
  · intro h
    rw [← loadLE_storeLE m a v hw, h]
  · rintro rfl
    funext x
    by_cases hx : (x - a).toNat < w / 8
    · have hxa : a + BitVec.ofNat w (x - a).toNat = x := by
        rw [BitVec.ofNat_toNat, BitVec.setWidth_eq, BitVec.add_comm, BitVec.sub_add_cancel]
      have hbyte := byte_eq_of_loadLE_eq (loadLE_storeLE m a (loadLE m a) hw) hx
      rwa [hxa] at hbyte
    · exact storeLE_of_outside m a _ (Nat.not_lt.mp hx)

end ByteMemory
