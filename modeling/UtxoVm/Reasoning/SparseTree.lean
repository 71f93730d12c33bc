import Mathlib

/-!
# SparseTree — the root of a full binary tree over bit addresses

The specification of a sparse Merkle tree: a full binary tree of fixed depth, whose leaves are given
by a function on addresses.  Subtrees are named by an address and the number of levels below them,
so that no list of bits has to be carried around.
-/

/-- Addresses of `depth` bits, bit `0` being the branch taken at the root. -/
class BitAddress (A : Type*) (depth : outParam ℕ) where
  bit : A → ℕ → Bool
  setBit : A → ℕ → Bool → A
  bit_setBit : ∀ a {i j} b, i < depth → j < depth →
    bit (setBit a i b) j = if j = i then b else bit a j
  ext : ∀ {a a'}, (∀ i < depth, bit a i = bit a' i) → a = a'

namespace SparseTree

open BitAddress

variable {A ν : Type*} {depth : ℕ} [BitAddress A depth]

/-- The addresses `a` and `a'` share the path from the root to level `l`. -/
def Agree (l : ℕ) (a a' : A) : Prop := ∀ i < l, bit a i = bit a' i

theorem Agree.refl (l : ℕ) (a : A) : Agree l a a := fun _ _ ↦ rfl

theorem Agree.symm {l : ℕ} {a a' : A} (h : Agree l a a') : Agree l a' a := fun i hi ↦ (h i hi).symm

theorem Agree.trans {l : ℕ} {a b c : A} (h : Agree l a b) (h' : Agree l b c) : Agree l a c :=
  fun i hi ↦ (h i hi).trans (h' i hi)

theorem Agree.mono {l l' : ℕ} {a a' : A} (h : Agree l a a') (hle : l' ≤ l) : Agree l' a a' :=
  fun i hi ↦ h i (by omega)

theorem Agree.eq {a a' : A} (h : Agree depth a a') : a = a' := BitAddress.ext h

/-- The sibling of `a`'s subtree at level `i + 1`. -/
def flip (a : A) (i : ℕ) : A := setBit a i (!bit a i)

theorem bit_flip {a : A} {i j : ℕ} (hi : i < depth) (hj : j < depth) :
    bit (flip a i) j = if j = i then !bit a i else bit a j :=
  bit_setBit a _ hi hj

theorem setBit_self {a : A} {i : ℕ} (hi : i < depth) : setBit a i (bit a i) = a := by
  apply BitAddress.ext
  intro j hj
  rw [bit_setBit a _ hi hj]
  split
  · rename_i hji
    rw [hji]
  · rfl

theorem setBit_not {a : A} {i : ℕ} {b : Bool} (h : bit a i = !b) : setBit a i b = flip a i := by
  unfold flip
  rw [h, Bool.not_not]

/-- Setting bit `l` keeps the path above it. -/
theorem agree_setBit (a : A) {l : ℕ} (b : Bool) (hl : l < depth) : Agree l (setBit a l b) a := by
  intro i hi
  rw [bit_setBit a b hl (by omega), if_neg (by omega)]

/-! ## 1. The root -/

variable (node : ν → ν → ν)

/-- The hash of the subtree that contains `a` and has `n` levels below its top. -/
def root (leaf : A → ν) : ℕ → A → ν
  | 0, a => leaf a
  | n + 1, a =>
      node (root leaf n (setBit a (depth - (n + 1)) false))
        (root leaf n (setBit a (depth - (n + 1)) true))

/-- The hash of an empty subtree with `n` levels below its top. -/
def emptyRoot (e : ν) : ℕ → ν
  | 0 => e
  | n + 1 => node (emptyRoot e n) (emptyRoot e n)

variable {node}

/-- A subtree depends on its own leaves only, and on its address only down to its top. -/
theorem root_congr {leaf leaf' : A → ν} {n : ℕ} {a a' : A} (hn : n ≤ depth)
    (ha : Agree (depth - n) a a') (hleaf : ∀ c, Agree (depth - n) c a → leaf c = leaf' c) :
    root node leaf n a = root node leaf' n a' := by
  induction n generalizing a a' with
  | zero =>
    rw [ha.eq] at hleaf ⊢
    exact hleaf a' (Agree.refl _ _)
  | succ n ih =>
    have hl : depth - (n + 1) < depth := by omega
    have hstep : depth - n = depth - (n + 1) + 1 := by omega
    have hset (b : Bool) : Agree (depth - n) (setBit a (depth - (n + 1)) b)
        (setBit a' (depth - (n + 1)) b) := by
      intro i hi
      rw [bit_setBit a b hl (by omega), bit_setBit a' b hl (by omega)]
      split
      · rfl
      · exact ha i (by omega)
    have hsub (b : Bool) (c : A) (hc : Agree (depth - n) c (setBit a (depth - (n + 1)) b)) :
        leaf c = leaf' c :=
      hleaf c ((hc.mono (by omega)).trans (agree_setBit a b hl))
    unfold root
    rw [ih (by omega) (hset false) (hsub false), ih (by omega) (hset true) (hsub true)]

/-- The children of a subtree, seen from an address below it. -/
theorem root_succ (leaf : A → ν) {n : ℕ} (a : A) (hn : n < depth) :
    root node leaf (n + 1) a =
      if bit a (depth - (n + 1)) = false then
        node (root node leaf n a) (root node leaf n (flip a (depth - (n + 1))))
      else node (root node leaf n (flip a (depth - (n + 1)))) (root node leaf n a) := by
  have hl : depth - (n + 1) < depth := by omega
  conv_lhs => unfold root
  have hself := setBit_self (a := a) hl
  split
  · rename_i hb
    rw [hb] at hself
    rw [hself, setBit_not (b := true) (by simpa using hb)]
  · rename_i hb
    have hb' : bit a (depth - (n + 1)) = true := by simpa using hb
    rw [hb'] at hself
    rw [hself, setBit_not (b := false) (by simpa using hb')]

theorem root_empty {leaf : A → ν} {e : ν} {n : ℕ} {a : A} (hn : n ≤ depth)
    (h : ∀ c, Agree (depth - n) c a → leaf c = e) : root node leaf n a = emptyRoot node e n := by
  induction n generalizing a with
  | zero => exact h a (Agree.refl _ _)
  | succ n ih =>
    have hl : depth - (n + 1) < depth := by omega
    have hsub (b : Bool) : root node leaf n (setBit a (depth - (n + 1)) b) = emptyRoot node e n :=
      ih (by omega) fun c hc ↦ h c ((hc.mono (by omega)).trans (agree_setBit a b hl))
    unfold root emptyRoot
    rw [hsub false, hsub true]

end SparseTree
