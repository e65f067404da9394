import Tlib.Library.ByteOrder
import Tlib.Memory.PageMapRuns

/-!
Contract: bulk access to physical memory.

Owns: `cpu_physical_memory_rw` and the pieces that it cuts a range into. Does not own: the bus,
`tlib_guest_offset_to_host_ptr`, and the code that a write invalidates.
-/

namespace Tlib.Memory

open Tlib.Library.ByteOrder Nat

abbrev Bytes : Type := Nat → BitVec 8

def memcpy (dst : Bytes) (dstAt : Nat) (src : Bytes) (srcAt n : Nat) : Bytes := fun a =>
  if dstAt ≤ a ∧ a < dstAt + n then src (srcAt + (a - dstAt)) else dst a

def slice (bytes : Bytes) (start n : Nat) : List (BitVec 8) :=
  (List.range n).map fun i => bytes (start + i)

def putBytes (dst : Bytes) (dstAt : Nat) (src : List (BitVec 8)) : Bytes := fun a =>
  if dstAt ≤ a then (src[a - dstAt]?).getD (dst a) else dst a

/-- Byte `i` of a range; addresses wrap around. -/
def byteAt (G : Geometry) (addr i : Nat) : Nat := (addr + i) % 2 ^ G.addrBits

structure Bus (β : Type*) where
  read : β → Nat → Nat → BitVec 64 × β
  write : β → Nat → Nat → BitVec 64 → β

/-- The backing of a page with this `phys_offset`, as a read takes it. -/
def readsMemory (G : Geometry) (pd : Nat) : Bool := ¬ (ioMemRom < pd % G.pageSize ∧ pd % 2 = 0)

/-- As a write takes it: RAM only. -/
def writesMemory (G : Geometry) (pd : Nat) : Bool := pd % G.pageSize = 0

structure PhysSpace (G : Geometry) (β : Type*) where
  /-- `phys_page_find` -/
  pages : Nat → Option PhysPageDesc
  /-- `get_ram_ptr`, which is `tlib_guest_offset_to_host_ptr` -/
  getRamPtr : Nat → Nat
  bus : Bus β
  endian : Endian
  contiguous : ∀ index pd offset, pages index = some pd → readsMemory G pd.physOffset →
    offset < G.pageSize →
    getRamPtr (pd.physOffset / G.pageSize * G.pageSize + offset) =
      getRamPtr (pd.physOffset / G.pageSize * G.pageSize) + offset

/-- Where the bytes of a piece are. -/
inductive Place where
  | memory (hostAddr : Nat)
  | bus (busAddr : Nat)
deriving DecidableEq, Repr

structure Piece where
  (addr length : Nat)
  place : Place
deriving DecidableEq, Repr

structure RwState (β : Type*) where
  (host buf : Bytes)
  bus : β

namespace PhysSpace

variable {G : Geometry} {β : Type*} (S : PhysSpace G β)

def physOffset (addr : Nat) : Nat :=
  match S.pages (addr / G.pageSize) with
  | none => ioMemUnassigned
  | some p => p.physOffset

def busAddress (addr : Nat) : Nat :=
  match S.pages (addr / G.pageSize) with
  | none => addr
  | some p => (addr % G.pageSize + p.regionOffset) % 2 ^ G.addrBits

/-- The widest aligned access that a length allows. -/
def busWidth (l addr1 : Nat) : Nat :=
  if 8 ≤ l ∧ addr1 % 8 = 0 then 8
  else if 4 ≤ l ∧ addr1 % 4 = 0 then 4
  else if 2 ≤ l ∧ addr1 % 2 = 0 then 2
  else 1

/-- What one turn of the loop accesses. -/
def piece (isWrite : Bool) (addr len : Nat) : Piece :=
  let page := addr / G.pageSize * G.pageSize
  let l := min (page + G.pageSize - addr) len
  let pd := S.physOffset addr
  let ram := pd / G.pageSize * G.pageSize
  if isWrite then
    if writesMemory G pd then
      { addr := addr, length := l, place := .memory (S.getRamPtr (ram + addr % G.pageSize)) }
    else
      { addr := addr, length := busWidth l (S.busAddress addr), place := .bus (S.busAddress addr) }
  else
    if readsMemory G pd then
      { addr := addr, length := l, place := .memory (S.getRamPtr ram + addr % G.pageSize) }
    else
      { addr := addr, length := busWidth l (S.busAddress addr), place := .bus (S.busAddress addr) }

/-- The value for the bus: `ldl_p` returns an `int`, whose sign is repeated. -/
def busValue (bytes : List (BitVec 8)) : BitVec 64 :=
  let value := decode S.endian bytes
  if bytes.length = 4 then (BitVec.ofNat 32 value).signExtend 64 else BitVec.ofNat 64 value

/-- The access of one turn, with the buffer at `pos`. -/
def perform (isWrite : Bool) (s : RwState β) (pos : Nat) (p : Piece) : RwState β :=
  match p.place with
  | .memory hostAddr =>
    if isWrite then { s with host := memcpy s.host hostAddr s.buf pos p.length }
    else { s with buf := memcpy s.buf pos s.host hostAddr p.length }
  | .bus busAddr =>
    if isWrite then
      { s with bus := S.bus.write s.bus p.length busAddr (S.busValue (slice s.buf pos p.length)) }
    else
      let (val, bus) := S.bus.read s.bus p.length busAddr
      { s with buf := putBytes s.buf pos (encode S.endian p.length val.toNat), bus := bus }

/-- The loop, with the pieces in order. `none` is a loop that has not ended. -/
def rwLoop (isWrite : Bool) : Nat → RwState β → Nat → Nat → Nat → Option (RwState β × List Piece)
  | 0, s, _, _, len => if 0 < len then none else some (s, [])
  | fuel + 1, s, addr, pos, len =>
    if 0 < len then
      let p := S.piece isWrite addr len
      (rwLoop isWrite fuel (S.perform isWrite s pos p) ((addr + p.length) % 2 ^ G.addrBits)
        (pos + p.length) (len - p.length)).map fun (s, pieces) => (s, p :: pieces)
    else some (s, [])

/-- `cpu_physical_memory_rw`; a negative length is no length. -/
def cpuPhysicalMemoryRw (isWrite : Bool) (s : RwState β) (addr : BitVec G.addrBits) (len : Int) :
    Option (RwState β × List Piece) :=
  S.rwLoop isWrite len.toNat s addr.toNat 0 len.toNat

def hostByte (addr : Nat) : Nat :=
  S.getRamPtr (S.physOffset addr / G.pageSize * G.pageSize) + addr % G.pageSize

/-- A piece inside one page, in memory where the page is, and else an aligned access. -/
structure WellPlaced (isWrite : Bool) (p : Piece) : Prop where
  onePage : p.addr % G.pageSize + p.length ≤ G.pageSize
  memory : ∀ hostAddr, p.place = .memory hostAddr → hostAddr = S.hostByte p.addr ∧
      (if isWrite then writesMemory G (S.physOffset p.addr)
        else readsMemory G (S.physOffset p.addr)) = true
  bus : ∀ busAddr, p.place = .bus busAddr →
    busAddr = S.busAddress p.addr ∧ p.length ∈ [1, 2, 4, 8] ∧ busAddr % p.length = 0 ∧
      (if isWrite then writesMemory G (S.physOffset p.addr)
        else readsMemory G (S.physOffset p.addr)) = false

section Bytes

variable {addr n i : Nat}

theorem byteAt_step (addr n i : Nat) :
    byteAt G ((addr + n) % 2 ^ G.addrBits) i = byteAt G addr (n + i) := by
  unfold byteAt
  rw [mod_add_mod, Nat.add_assoc]

section

variable (less : addr < 2 ^ G.addrBits)

include less

theorem byteAt_zero : byteAt G addr 0 = addr := mod_eq_of_lt less

theorem byteAt_page (onePage : addr % G.pageSize + n ≤ G.pageSize)
    (below : i < n) :
    byteAt G addr i = addr + i ∧ (addr + i) / G.pageSize = addr / G.pageSize ∧
      (addr + i) % G.pageSize = addr % G.pageSize + i := by
  have narrow := G.pageBits_le
  have width := G.addrBits_eq
  have split := div_add_mod addr G.pageSize
  obtain ⟨pages, whole⟩ : G.pageSize ∣ 2 ^ G.addrBits := Nat.pow_dvd_pow 2 (by omega)
  have page : addr / G.pageSize < pages := by
    rw [Nat.div_lt_iff_lt_mul G.pageSize_pos, Nat.mul_comm, ← whole]
    exact less
  have last : G.pageSize * (addr / G.pageSize + 1) ≤ G.pageSize * pages :=
    Nat.mul_le_mul_left _ page
  rw [Nat.mul_add, Nat.mul_one, ← whole] at last
  have here : addr + i = addr % G.pageSize + i + G.pageSize * (addr / G.pageSize) := by omega
  refine ⟨mod_eq_of_lt (by omega), ?_, ?_⟩
  · rw [here, add_mul_div_left _ _ G.pageSize_pos, div_eq_of_lt (by omega), Nat.zero_add]
  · rw [here, add_mul_mod_self_left, mod_eq_of_lt (by omega)]

theorem physOffset_page
    (onePage : addr % G.pageSize + n ≤ G.pageSize) (below : i < n) :
    S.physOffset (byteAt G addr i) = S.physOffset addr := by
  obtain ⟨here, page, -⟩ := byteAt_page less onePage below
  unfold physOffset
  rw [here, page]

theorem hostByte_page
    (onePage : addr % G.pageSize + n ≤ G.pageSize) (below : i < n) :
    S.hostByte (byteAt G addr i) = S.hostByte addr + i := by
  obtain ⟨here, -, offset⟩ := byteAt_page less onePage below
  rw [hostByte, S.physOffset_page less onePage below, here, offset, hostByte, Nat.add_assoc]

end

def IsRam (addr : Nat) : Prop := writesMemory G (S.physOffset addr) = true

def IsBacked (addr : Nat) : Prop := readsMemory G (S.physOffset addr) = true

instance (addr : Nat) : Decidable (S.IsRam addr) := inferInstanceAs (Decidable (_ = true))

instance (addr : Nat) : Decidable (S.IsBacked addr) := inferInstanceAs (Decidable (_ = true))

section

variable (s : RwState β) (pos : Nat)

include s pos

theorem perform_write_buf (p : Piece) : (S.perform true s pos p).buf = s.buf := by
  unfold perform
  cases p.place with
  | memory hostAddr => rfl
  | bus busAddr => rfl

theorem perform_read_host (p : Piece) : (S.perform false s pos p).host = s.host := by
  unfold perform
  cases p.place with
  | memory hostAddr => rfl
  | bus busAddr => rfl

theorem perform_write_host {p : Piece}
    (placed : S.WellPlaced true p) (a : Nat) :
    (S.perform true s pos p).host a =
      if S.IsRam p.addr ∧ S.hostByte p.addr ≤ a ∧ a < S.hostByte p.addr + p.length then
        s.buf (pos + (a - S.hostByte p.addr))
      else s.host a := by
  unfold perform
  cases place : p.place with
  | memory hostAddr =>
    obtain ⟨rfl, ram⟩ := placed.memory hostAddr place
    have isRam : S.IsRam p.addr := ram
    simp [memcpy, isRam]
  | bus busAddr =>
    have noRam : ¬ S.IsRam p.addr := Bool.eq_false_iff.mp (placed.bus busAddr place).2.2.2
    simp [noRam]

theorem perform_read_buf_outside (p : Piece) {j : Nat}
    (outside : j < pos ∨ pos + p.length ≤ j) : (S.perform false s pos p).buf j = s.buf j := by
  unfold perform
  cases p.place with
  | memory hostAddr =>
    simp only [Bool.false_eq_true, if_false, memcpy]
    rw [if_neg (by omega)]
  | bus busAddr =>
    simp only [Bool.false_eq_true, if_false, putBytes]
    split_ifs
    · rw [List.getElem?_eq_none (by rw [encode_length]; omega)]
      rfl
    · rfl

theorem perform_read_buf {p : Piece}
    (placed : S.WellPlaced false p) (backed : S.IsBacked p.addr) {i : Nat} (below : i < p.length) :
    (S.perform false s pos p).buf (pos + i) = s.host (S.hostByte p.addr + i) := by
  unfold perform
  cases place : p.place with
  | memory hostAddr =>
    obtain ⟨rfl, -⟩ := placed.memory hostAddr place
    simp only [Bool.false_eq_true, if_false, memcpy]
    rw [if_pos (by omega), Nat.add_sub_cancel_left]
  | bus busAddr =>
    exact absurd backed (Bool.eq_false_iff.mp (placed.bus busAddr place).2.2.2)

end

end Bytes

end PhysSpace

/-- The pieces cover `len` bytes from `addr` on, each once and in order. -/
def Covers (G : Geometry) : Nat → Nat → List Piece → Prop
  | _, len, [] => len = 0
  | addr, len, p :: rest =>
    p.addr = addr ∧ 0 < p.length ∧ p.length ≤ len ∧
      Covers G ((addr + p.length) % 2 ^ G.addrBits) (len - p.length) rest

namespace PhysSpace

variable {G : Geometry} {β : Type*} (S : PhysSpace G β)

/-- What a call leaves of the range from `addr` on, with the buffer at `pos`. -/
structure RwEffect (isWrite : Bool) (s s' : RwState β) (addr pos len : Nat) : Prop where
  writes : isWrite = true → s'.buf = s.buf ∧
    ∀ a, (∀ i < len, S.IsRam (byteAt G addr i) → S.hostByte (byteAt G addr i) ≠ a) →
      s'.host a = s.host a
  written : isWrite = true → ∀ i < len, S.IsRam (byteAt G addr i) →
    (∀ j < len, S.IsRam (byteAt G addr j) →
      S.hostByte (byteAt G addr j) = S.hostByte (byteAt G addr i) → j = i) →
    s'.host (S.hostByte (byteAt G addr i)) = s.buf (pos + i)
  reads : isWrite = false → s'.host = s.host ∧ ∀ j, j < pos ∨ pos + len ≤ j → s'.buf j = s.buf j
  arrived : isWrite = false → ∀ i < len, S.IsBacked (byteAt G addr i) →
    s'.buf (pos + i) = s.host (S.hostByte (byteAt G addr i))

theorem RwEffect.step {isWrite : Bool} {s s' : RwState β} {addr pos len : Nat}
    (less : addr < 2 ^ G.addrBits) {p : Piece} (placed : S.WellPlaced isWrite p)
    (start : p.addr = addr) (le : p.length ≤ len)
    (rest : S.RwEffect isWrite (S.perform isWrite s pos p) s'
      ((addr + p.length) % 2 ^ G.addrBits) (pos + p.length) (len - p.length)) :
    S.RwEffect isWrite s s' addr pos len := by
  have onePage := placed.onePage
  rw [start] at onePage
  have later : ∀ i, byteAt G ((addr + p.length) % 2 ^ G.addrBits) i =
      byteAt G addr (p.length + i) := byteAt_step addr p.length
  constructor
  · intro write
    subst write
    obtain ⟨bufRest, hostRest⟩ := rest.writes rfl
    refine ⟨by rw [bufRest, S.perform_write_buf], ?_⟩
    intro a outside
    rw [hostRest a, S.perform_write_host s pos placed a]
    · rw [if_neg]
      rintro ⟨ram, from_le, below⟩
      have offset : a - S.hostByte p.addr < p.length := by omega
      rw [start] at ram from_le below offset
      have here := S.hostByte_page less onePage offset
      refine outside (a - S.hostByte addr) (by omega) ?_ (by omega)
      rw [IsRam, S.physOffset_page less onePage offset]
      exact ram
    · intro i below ram
      rw [later] at ram ⊢
      exact outside (p.length + i) (by omega) ram
  · intro write i below ram own
    subst write
    obtain ⟨-, hostRest⟩ := rest.writes rfl
    by_cases inPiece : i < p.length
    · have here := S.hostByte_page less onePage inPiece
      have ramHere : S.IsRam p.addr := by
        rw [IsRam, S.physOffset_page less onePage inPiece] at ram
        rw [start]
        exact ram
      rw [here, hostRest, S.perform_write_host s pos placed]
      · rw [if_pos ⟨ramHere, by rw [start]; omega, by rw [start]; omega⟩, start,
          Nat.add_sub_cancel_left]
      · intro j belowRest ramLater same
        rw [later] at ramLater same
        have again := own (p.length + j) (by omega) ramLater (by rw [same, here])
        omega
    · obtain ⟨k, rfl⟩ := Nat.exists_eq_add_of_le (Nat.le_of_not_lt inPiece)
      have arrived := rest.written rfl k (by omega) (by rw [later]; exact ram)
      rw [later, S.perform_write_buf, Nat.add_assoc] at arrived
      refine arrived ?_
      intro j belowRest ramLater same
      rw [later] at ramLater same
      have again := own (p.length + j) (by omega) ramLater same
      omega
  · intro read
    subst read
    obtain ⟨hostRest, bufRest⟩ := rest.reads rfl
    refine ⟨by rw [hostRest, S.perform_read_host], ?_⟩
    intro j outside
    rw [bufRest j (by omega), S.perform_read_buf_outside s pos p (by omega)]
  · intro read i below backed
    subst read
    by_cases inPiece : i < p.length
    · have backedHere : S.IsBacked p.addr := by
        rw [IsBacked, S.physOffset_page less onePage inPiece] at backed
        rw [start]
        exact backed
      rw [(rest.reads rfl).2 (pos + i) (by omega),
        S.perform_read_buf s pos placed backedHere inPiece, start,
        S.hostByte_page less onePage inPiece]
    · obtain ⟨k, rfl⟩ := Nat.exists_eq_add_of_le (Nat.le_of_not_lt inPiece)
      have arrived := rest.arrived rfl k (by omega) (by rw [later]; exact backed)
      rw [later, S.perform_read_host, Nat.add_assoc] at arrived
      exact arrived

theorem RwEffect.refl (isWrite : Bool) (s : RwState β) (addr pos : Nat) :
    S.RwEffect isWrite s s addr pos 0 where
  writes := fun _ => ⟨rfl, fun _ _ => rfl⟩
  written := fun _ i below => absurd below (Nat.not_lt_zero i)
  reads := fun _ => ⟨rfl, fun _ _ => rfl⟩
  arrived := fun _ i below => absurd below (Nat.not_lt_zero i)

end PhysSpace

end Tlib.Memory
