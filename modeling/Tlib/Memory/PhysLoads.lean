import Tlib.Memory.PhysAccess

/-!
Contract: loads and stores of physical memory, of 4 and 8 bytes.

Owns: `ldl_phys`, `ldq_phys` and their stores, over pages of RAM and in either order of bytes.
-/

namespace Tlib.Memory

open Tlib.Library.ByteOrder BitVec List Nat Or

namespace PhysSpace

variable {G : Geometry} {β : Type*} (S : PhysSpace G β) (hostEndian : Endian)

/-- `ldl_phys_aligned` and `ldq_phys_aligned`. -/
def physLoadAligned (n : Nat) (s : RwState β) (addr : BitVec G.addrBits) :
    BitVec (8 * n) × RwState β :=
  if readsMemory G (S.physOffset addr.toNat) then
    let ptr := S.getRamPtr (S.physOffset addr.toNat / G.pageSize * G.pageSize) +
      addr.toNat % G.pageSize
    (BitVec.ofNat (8 * n) (decode S.endian (slice s.host ptr n)), s)
  else
    let (val, bus) := S.bus.read s.bus n (S.busAddress addr.toNat)
    (val.setWidth (8 * n), { s with bus := bus })

/-- The unaligned path reads into a local variable, which the host takes in its order. -/
def physLoad (n : Nat) (s : RwState β) (addr : BitVec G.addrBits) :
    Option (BitVec (8 * n) × RwState β) :=
  if addr.toNat % n = 0 then some (S.physLoadAligned n s addr)
  else (S.cpuPhysicalMemoryRw false s addr n).map fun (s, _) =>
    (BitVec.ofNat (8 * n) (decode hostEndian (slice s.buf 0 n)), s)

def ldlPhys (s : RwState β) (addr : BitVec G.addrBits) : Option (BitVec 32 × RwState β) :=
  S.physLoad hostEndian 4 s addr

/-- `n` bytes of RAM, each with a host byte of its own. -/
structure RamRange (addr n : Nat) : Prop where
  ram : ∀ i < n, S.IsRam (byteAt G addr i)
  own : ∀ i < n, ∀ j < n, S.hostByte (byteAt G addr i) = S.hostByte (byteAt G addr j) → i = j

section Ram

variable {n : Nat} {s : RwState β} {addr : BitVec G.addrBits}

theorem RamRange.first {S : PhysSpace G β} (range : S.RamRange addr.toNat n) (positive : 0 < n) :
    S.IsRam addr.toNat := by
  have ram := range.ram 0 positive
  rwa [byteAt_zero addr.isLt] at ram

end Ram

section Agreement

variable {S} {hostEndian} {n : Nat} {s : RwState β} {addr : BitVec G.addrBits}

theorem toNat_add_four (addr : BitVec G.addrBits) :
    (addr + 4).toNat = (addr.toNat + 4) % 2 ^ G.addrBits := by
  have width := G.addrBits_eq
  have room : 2 ^ 3 ≤ 2 ^ G.addrBits := Nat.pow_le_pow_right (by decide) (by omega)
  have less : 4 < 2 ^ G.addrBits := lt_of_lt_of_le (by decide) room
  have four : (4 : BitVec G.addrBits).toNat = 4 := by
    rw [ofNat_eq_ofNat, toNat_ofNat, mod_eq_of_lt less]
  rw [toNat_add, four]

theorem byteAt_second (addr : BitVec G.addrBits) (i : Nat) :
    byteAt G (addr + 4).toNat i = byteAt G addr.toNat (4 + i) := by
  rw [toNat_add_four, byteAt_step]

theorem RamRange.halves (range : S.RamRange addr.toNat 8) :
    S.RamRange addr.toNat 4 ∧ S.RamRange (addr + 4).toNat 4 := by
  constructor
  · exact ⟨fun i below => range.ram i (by omega),
      fun i belowI j belowJ => range.own i (by omega) j (by omega)⟩
  · constructor
    · intro i below
      rw [byteAt_second]
      exact range.ram (4 + i) (by omega)
    · intro i belowI j belowJ same
      rw [byteAt_second, byteAt_second] at same
      have equal := range.own (4 + i) (by omega) (4 + j) (by omega) same
      omega

end Agreement

end PhysSpace

end Tlib.Memory
