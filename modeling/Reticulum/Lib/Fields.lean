import Mathlib.Algebra.GroupWithZero.Nat
import Reticulum.Lib.Bytes

/-!
# Fields of a signed text

A number as so many big-endian bytes, and a byte string behind its length. A row of byte strings
behind their lengths determines the byte strings, whatever they hold.
-/

namespace Fields

/-- A number in `w` bytes, the highest first. -/
def bigEndian : Nat → Nat → Bytes
  | 0, _ => []
  | w + 1, n => bigEndian w (n / 256) ++ [UInt8.ofNat n]

@[simp] theorem length_bigEndian (w n : Nat) : (bigEndian w n).length = w := by
  induction w generalizing n with
  | zero => rfl
  | succ w ih => rw [bigEndian, List.length_append, ih, List.length_singleton]

theorem bigEndian_inj {w n m : Nat} (hn : n < 256 ^ w) (hm : m < 256 ^ w)
    (h : bigEndian w n = bigEndian w m) : n = m := by
  induction w generalizing n m with
  | zero =>
      rw [Nat.pow_zero] at hn hm
      omega
  | succ w ih =>
      obtain ⟨hhigh, hlow⟩ := List.append_inj' h rfl
      rw [Nat.pow_succ] at hn hm
      have hdiv : n / 256 = m / 256 :=
        ih (Nat.div_lt_of_lt_mul (by omega)) (Nat.div_lt_of_lt_mul (by omega)) hhigh
      have hmod := congrArg UInt8.toNat (List.singleton_inj.mp hlow)
      simp only [UInt8.toNat_ofNat'] at hmod
      omega

/-- The number that some bytes are, the highest first. -/
def number (b : Bytes) : Nat := b.foldl (fun n byte => n * 256 + byte.toNat) 0

theorem number_bigEndian {w n : Nat} (h : n < 256 ^ w) : number (bigEndian w n) = n := by
  induction w generalizing n with
  | zero => exact (Nat.lt_one_iff.mp h).symm
  | succ w ih =>
      rw [Nat.pow_succ] at h
      have hhigh : number (bigEndian w (n / 256)) = n / 256 :=
        ih (Nat.div_lt_of_lt_mul (by omega))
      unfold number at hhigh ⊢
      rw [bigEndian, List.foldl_append, hhigh, List.foldl_cons, List.foldl_nil, UInt8.toNat_ofNat']
      omega

/-- A byte string whose length is a 16-bit number. -/
def Fits (b : Bytes) : Prop := b.length < 65536

instance (b : Bytes) : Decidable (Fits b) := inferInstanceAs (Decidable (_ < _))

/-- A byte string behind its length. -/
def prefixed (b : Bytes) : Bytes := Bytes.ofU16 b.length ++ b

variable {b d rest rest' : Bytes}

theorem ofU16_inj {n m : Nat} (hn : n < 65536) (hm : m < 65536)
    (h : Bytes.ofU16 n = Bytes.ofU16 m) : n = m := by
  obtain ⟨hhigh, hlow⟩ := List.cons.inj h
  rw [← Bytes.toU16_ofNat hn, ← Bytes.toU16_ofNat hm, hhigh, List.singleton_inj.mp hlow]

theorem prefixed_append_inj (hb : Fits b) (hd : Fits d)
    (h : prefixed b ++ rest = prefixed d ++ rest') : b = d ∧ rest = rest' := by
  unfold prefixed at h
  rw [List.append_assoc, List.append_assoc] at h
  obtain ⟨hlength, hbytes⟩ := List.append_inj h rfl
  exact List.append_inj hbytes (ofU16_inj hb hd hlength)

theorem prefixed_ne_nil : prefixed b ++ rest ≠ [] := by
  unfold prefixed Bytes.ofU16
  exact List.cons_ne_nil _ _

/-- A row of fields behind their lengths determines them, also how many there are. -/
theorem flatMap_prefixed_inj {fs gs : List Bytes} (hfs : ∀ f ∈ fs, Fits f)
    (hgs : ∀ g ∈ gs, Fits g) (h : fs.flatMap prefixed = gs.flatMap prefixed) : fs = gs := by
  induction fs generalizing gs with
  | nil =>
      cases gs with
      | nil => rfl
      | cons g gs =>
          rw [List.flatMap_cons] at h
          exact absurd h.symm prefixed_ne_nil
  | cons f fs ih =>
      cases gs with
      | nil =>
          rw [List.flatMap_cons] at h
          exact absurd h prefixed_ne_nil
      | cons g gs =>
          obtain ⟨hf, hfs'⟩ := List.forall_mem_cons.mp hfs
          obtain ⟨hg, hgs'⟩ := List.forall_mem_cons.mp hgs
          rw [List.flatMap_cons, List.flatMap_cons] at h
          obtain ⟨rfl, hrest⟩ := prefixed_append_inj hf hg h
          rw [ih hfs' hgs' hrest]

end Fields
