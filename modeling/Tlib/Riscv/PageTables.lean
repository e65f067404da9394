import Tlib.Riscv.TrapState
import Tlib.Softmmu.Tlb

/-!
Contract: page tables as the privileged architecture defines them.

Owns: the fields of a page-table entry, the schemes Sv32 to Sv57, and the walk with the leaf that it
ends at.
-/

namespace Tlib.Riscv.Paging

open Tlib.Softmmu (AccessType)

variable {xlen : Nat}

abbrev Memory (xlen : Nat) := Nat → BitVec xlen

section Entries

variable (pte : BitVec xlen)

def pteV : Bool := pte.getLsbD 0
def pteR : Bool := pte.getLsbD 1
def pteW : Bool := pte.getLsbD 2
def pteX : Bool := pte.getLsbD 3
def pteU : Bool := pte.getLsbD 4
def pteD : Bool := pte.getLsbD 7

def ppnBits (xlen : Nat) : Nat := if xlen = 32 then 22 else 44

def pageNumber (ppn : BitVec xlen) : Nat := ppn.toNat % 2 ^ ppnBits xlen

def ptePpn : Nat := pageNumber (pte >>> 10)

inductive PteKind where
  | invalid
  | pointer
  | leaf
  deriving DecidableEq, Repr

def pteKind : PteKind :=
  if !pteV pte || (!pteR pte && pteW pte) then .invalid
  else if pteR pte || pteX pte then .leaf
  else .pointer

def markUsed (access : AccessType) : BitVec xlen :=
  pte ||| (0x40 ||| if access = .dataStore then 0x80 else 0)

end Entries

/-- What an access is made with. -/
structure Privileges where
  (supervisor sum mxr : Bool)
  /-- Whether supervisor code may lie in user pages. -/
  userFetch : Bool
  deriving DecidableEq, Repr

namespace Privileges

variable (p : Privileges) (pte : BitVec xlen) (access : AccessType)

/-- The page belongs to the privilege of the access. -/
def reaches : Bool :=
  if pteU pte then !p.supervisor || (p.sum && (access ≠ .instFetch || p.userFetch))
  else p.supervisor

def permits : Bool :=
  p.reaches pte access && match access with
    | .dataLoad => pteR pte || (p.mxr && pteX pte)
    | .dataStore => pteW pte
    | .instFetch => pteX pte

end Privileges

structure Scheme where
  (levels ptidxbits ptesize : Nat)
  deriving DecidableEq, Repr

def sv32 : Scheme := ⟨2, 10, 4⟩
def sv39 : Scheme := ⟨3, 9, 8⟩
def sv48 : Scheme := ⟨4, 9, 8⟩
def sv57 : Scheme := ⟨5, 9, 8⟩

def schemes (xlen : Nat) : List Scheme := if xlen = 32 then [sv32] else [sv39, sv48, sv57]

def pgshift : Nat := 12

/-- An entry that a walk stops at. -/
structure Leaf (xlen : Nat) where
  (level address : Nat)
  pte : BitVec xlen

namespace Scheme

variable (scheme : Scheme) (address : BitVec xlen)

def vaBits : Nat := pgshift + scheme.levels * scheme.ptidxbits

/-- The bits above the virtual address repeat its top bit. -/
def Canonical : Prop :=
  ∀ i < xlen, scheme.vaBits ≤ i → address.getLsbD i = address.getLsbD (scheme.vaBits - 1)

instance : Decidable (scheme.Canonical address) := by
  unfold Canonical
  infer_instance

def vpn (level : Nat) : Nat :=
  address.toNat / 2 ^ (pgshift + level * scheme.ptidxbits) % 2 ^ scheme.ptidxbits

def pteAddress (level table : Nat) : Nat :=
  table * 2 ^ pgshift + scheme.vpn address level * scheme.ptesize

def walk (mem : Memory xlen) : Nat → Nat → List Nat × Option (Leaf xlen)
  | 0, _ => ([], none)
  | level + 1, table =>
    let pteAddress := scheme.pteAddress address level table
    let pte := mem pteAddress
    match pteKind pte with
    | .invalid => ([pteAddress], none)
    | .leaf => ([pteAddress], some ⟨level, pteAddress, pte⟩)
    | .pointer =>
      let rest := walk mem level (ptePpn pte)
      (pteAddress :: rest.1, rest.2)

def Aligned (leaf : Leaf xlen) : Prop := ptePpn leaf.pte % 2 ^ (leaf.level * scheme.ptidxbits) = 0

instance (leaf : Leaf xlen) : Decidable (scheme.Aligned leaf) := inferInstanceAs (Decidable (_ = _))

def page (leaf : Leaf xlen) : Nat :=
  let below := 2 ^ (leaf.level * scheme.ptidxbits)
  ptePpn leaf.pte / below * below + address.toNat / 2 ^ pgshift % below

def physical (leaf : Leaf xlen) : Nat :=
  scheme.page address leaf * 2 ^ pgshift + address.toNat % 2 ^ pgshift

def Grants (p : Privileges) (access : AccessType) (leaf : Leaf xlen) : Prop :=
  scheme.Aligned leaf ∧ p.permits leaf.pte access = true

instance (p : Privileges) (access : AccessType) (leaf : Leaf xlen) :
    Decidable (scheme.Grants p access leaf) := inferInstanceAs (Decidable (_ ∧ _))

def specified (p : Privileges) (mem : Memory xlen) (root : Nat) (access : AccessType) :
    List Nat × Option (Leaf xlen) :=
  if scheme.Canonical address then
    let found := scheme.walk address mem scheme.levels root
    (found.1, found.2.filter fun leaf => scheme.Grants p access leaf)
  else ([], none)

end Scheme

end Tlib.Riscv.Paging
