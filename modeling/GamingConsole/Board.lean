/-
Words and addresses.

The kernel's `uint64_t` is `BitVec 64`, so every sum and difference below wraps
where the source's does.  The constants are those of `board.h` and `pmm.h` that
the memory subsystem reads.
-/
import GamingConsole.Library.BitFields

namespace GamingConsole

open BitFields

/-- `uint64_t`. -/
abbrev U64 : Type := BitVec 64

/-- One past the last byte of the RAM the kernel manages (`PHYS_MEM_END`). -/
def physMemEnd : U64 := 0x3F800000#64

/-- Frame and page size in bytes (`PAGE_SIZE`). -/
def pageSize : U64 := 4096#64

/-- `round_up`: the next multiple of `align`, a power of two. -/
def roundUp (value align : U64) : U64 := (value + align - 1) &&& ~~~(align - 1)

@[simp] theorem toNat_physMemEnd : physMemEnd.toNat = 0x3F800000 := rfl

@[simp] theorem toNat_pageSize : pageSize.toNat = 4096 := rfl

theorem toNat_roundUp_pageSize (v : U64) :
    (roundUp v pageSize).toNat = (v.toNat + 4095) % 2 ^ 64 / 4096 * 4096 := by
  have hmask : pageSize - 1 = lowMask 64 12 := rfl
  rw [roundUp, hmask, toNat_and_highMask _ (by omega)]
  rw [show v + pageSize - 1 = v + 4095#64 by rw [pageSize]; bv_omega, BitVec.toNat_add]
  rfl

theorem toNat_mul_pageSize {i : ℕ} (hi : i < 2 ^ 52) :
    (BitVec.ofNat 64 i * pageSize).toNat = i * 4096 := by
  rw [BitVec.toNat_mul, BitVec.toNat_ofNat, toNat_pageSize]
  omega

/-- The address of byte `4096 * i` past `base`, where it does not wrap. -/
theorem toNat_add_mul_pageSize {base : U64} {i : ℕ} (h : base.toNat + i * 4096 < 2 ^ 64) :
    (base + BitVec.ofNat 64 i * pageSize).toNat = base.toNat + i * 4096 := by
  rw [BitVec.toNat_add, toNat_mul_pageSize (by omega)]
  exact Nat.mod_eq_of_lt h

end GamingConsole
