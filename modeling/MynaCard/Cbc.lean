import Mathlib

/-!
# Cipher block chaining

CBC over an arbitrary block type: a block is combined with the ciphertext block before it and then
encrypted. All that is asked of the cipher is that decryption inverts encryption, and of the
combination that it is its own inverse; from these, decryption inverts encryption on any list of
blocks. Splitting a list into blocks of a fixed size is here too.

Nothing here is about the card.
-/

namespace MynaCard.Cbc

variable {B : Type}

/-- CBC encryption with the block operation `enc`, from the initial vector `iv`. -/
def encrypt (enc : B → B) (xor : B → B → B) : B → List B → List B
  | _, [] => []
  | iv, p :: ps => enc (xor iv p) :: encrypt enc xor (enc (xor iv p)) ps

/-- CBC decryption with the block operation `dec`. -/
def decrypt (dec : B → B) (xor : B → B → B) : B → List B → List B
  | _, [] => []
  | iv, c :: cs => xor iv (dec c) :: decrypt dec xor c cs

@[simp] theorem encrypt_length (enc : B → B) (xor : B → B → B) (iv : B) (ps : List B) :
    (encrypt enc xor iv ps).length = ps.length := by
  induction ps generalizing iv with
  | nil => rfl
  | cons p ps ih => simp [encrypt, ih]

/-- Decryption inverts encryption from the same initial vector. -/
theorem decrypt_encrypt {enc dec : B → B} {xor : B → B → B} (hdec : ∀ b, dec (enc b) = b)
    (hxor : ∀ a b, xor a (xor a b) = b) (iv : B) (ps : List B) :
    decrypt dec xor iv (encrypt enc xor iv ps) = ps := by
  induction ps generalizing iv with
  | nil => rfl
  | cons p ps ih => rw [encrypt, decrypt, hdec, hxor, ih]

/-! ### Blocks -/

variable {α : Type}

/-- The whole blocks of `n + 1` elements at the front of a list; a shorter remainder is dropped. -/
@[semireducible] def blocks (n : ℕ) (xs : List α) : List { b : List α // b.length = n + 1 } :=
  if h : n + 1 ≤ xs.length then
    ⟨xs.take (n + 1), by rw [List.length_take]; omega⟩ :: blocks n (xs.drop (n + 1))
  else []
termination_by xs.length
decreasing_by
  rw [List.length_drop]
  omega

/-- The elements of a list of blocks. -/
def unblocks {n : ℕ} (bs : List { b : List α // b.length = n + 1 }) : List α :=
  (bs.map Subtype.val).flatten

@[simp] theorem unblocks_cons {n : ℕ} (b : { b : List α // b.length = n + 1 })
    (bs : List { b : List α // b.length = n + 1 }) : unblocks (b :: bs) = b.1 ++ unblocks bs := rfl

theorem unblocks_length {n : ℕ} (bs : List { b : List α // b.length = n + 1 }) :
    (unblocks bs).length = bs.length * (n + 1) := by
  induction bs with
  | nil => simp [unblocks]
  | cons b bs ih =>
    rw [unblocks_cons, List.length_append, ih, b.2, List.length_cons]
    ring

/-- Splitting what a list of blocks is made of gives the blocks back. -/
theorem blocks_unblocks {n : ℕ} (bs : List { b : List α // b.length = n + 1 }) :
    blocks n (unblocks bs) = bs := by
  induction bs with
  | nil =>
    rw [blocks, dif_neg (by simp [unblocks])]
  | cons b bs ih =>
    have htake : (b.1 ++ unblocks bs).take (n + 1) = b.1 := List.take_left' b.2
    have hdrop : (b.1 ++ unblocks bs).drop (n + 1) = unblocks bs := List.drop_left' b.2
    rw [unblocks_cons, blocks, dif_pos (by rw [List.length_append, b.2]; omega)]
    congr 1
    · exact Subtype.ext htake
    · rw [hdrop, ih]

/-- A list of a whole number of blocks is the elements of its blocks. -/
theorem unblocks_blocks (n : ℕ) (xs : List α) (h : xs.length % (n + 1) = 0) :
    unblocks (blocks n xs) = xs := by
  rw [blocks]
  by_cases hlen : n + 1 ≤ xs.length
  · rw [dif_pos hlen, unblocks_cons, unblocks_blocks n (xs.drop (n + 1)) (by
        rw [List.length_drop]
        obtain ⟨k, hk⟩ := Nat.dvd_of_mod_eq_zero h
        obtain ⟨k, rfl⟩ : ∃ j, k = j + 1 := ⟨k - 1, by cases k <;> simp_all⟩
        rw [hk, Nat.mul_add, Nat.mul_one, Nat.add_sub_cancel]
        exact Nat.mul_mod_right _ _)]
    exact List.take_append_drop _ _
  · rw [dif_neg hlen]
    have hzero : xs.length = 0 := by
      rw [Nat.mod_eq_of_lt (by omega)] at h
      exact h
    rw [List.length_eq_zero_iff.mp hzero]
    rfl
termination_by xs.length
decreasing_by
  rw [List.length_drop]
  omega

end MynaCard.Cbc
