import MynaCard.FileCard
import MynaCard.SessionCounters

/-!
# What is encrypted, and what is accepted as padding

A plaintext goes through five steps before it is on the wire: it is padded, chained, wrapped in the
data object `86`, parsed out of it and unpadded again. `decrypt_parseCryptogram` is the way there and
back, for every length the three forms of the length field can hold.

With no checksum in the session, the padding is all that tells a plaintext from noise. `unpad`
looks for the marker behind any number of zeros, and never at where the last block begins, so it
takes more than `pad` produces; `unpad_exact_iff` says by how much.
-/

namespace MynaCard

/-! ### The way there and back -/

/-- **Encrypting, wrapping, unwrapping and decrypting at one counter gives the plaintext back**, and
what follows the data object is not looked at. -/
theorem decrypt_parseCryptogram (aes : Aes128) (oc : OverflowChecks) (key : Block) (n : UInt32)
    (plaintext rest : Bytes) (h : (pad plaintext).length + 1 ≤ 65535) :
    (parseCryptogram oc (cryptogramObject (aes.encrypt key n plaintext) ++ rest) >>=
      aes.decrypt key n) = .ok plaintext := by
  have hlen : (aes.encrypt key n plaintext).length + 1 ≤ 0xFFFF := by
    rw [aes.encrypt_length]
    exact h
  have hparse := parseCryptogram_cryptogramObject_append oc hlen rest
  exact Run.bind_eq_ok.mpr ⟨_, hparse, aes.decrypt_encrypt key n plaintext⟩

/-- 140 bytes take nine blocks, and their data object a length field of two bytes. -/
theorem decrypt_parseCryptogram_140 :
    (pad (List.replicate 140 0x31)).length + 1 ≤ 65535 ∧
      (parseCryptogram .on (cryptogramObject
          (aes128.encrypt Block.zero 7 (List.replicate 140 0x31)) ++ [0x90, 0x00]) >>=
        aes128.decrypt Block.zero 7) = .ok (List.replicate 140 0x31) := by
  have hlen : (pad (List.replicate 140 0x31)).length + 1 ≤ 65535 := by simp [pad]
  exact ⟨hlen, decrypt_parseCryptogram aes128 .on Block.zero 7 _ _ hlen⟩

/-! ### What `unpad` accepts -/

/-- From the back: zeros, the marker, and what is given. -/
theorem unpadBack_eq_some {back m : Bytes} :
    unpadBack back = some m ↔ ∃ k, back = List.replicate k 0x00 ++ 0x80 :: m.reverse := by
  constructor
  · intro h
    induction back with
    | nil => exact nomatch h
    | cons last rest ih =>
      rw [unpadBack] at h
      split_ifs at h with hzero hmarker
      · obtain ⟨k, rfl⟩ := ih h
        exact ⟨k + 1, by rw [hzero, List.replicate_succ, List.cons_append]⟩
      · cases h
        exact ⟨0, by rw [hmarker, List.reverse_reverse]; rfl⟩
  · rintro ⟨k, rfl⟩
    rw [unpadBack_replicate, unpadBack, if_neg (by decide), if_pos rfl, List.reverse_reverse]

/-- `unpad` takes the last marker off, with every zero behind it. -/
theorem unpad_eq_ok {x m : Bytes} :
    unpad x = .ok m ↔ ∃ k, x = m ++ 0x80 :: List.replicate k 0x00 := by
  rw [unpad, orMalformed_eq_ok, unpadBack_eq_some]
  refine exists_congr fun k => ?_
  rw [List.reverse_eq_iff]
  simp

/-- What `unpad` does not accept it reports. -/
theorem unpad_error_of_not_ok {x : Bytes} (h : ∀ m, unpad x ≠ .ok m) :
    ∃ error, unpad x = .error (.err error) := by
  unfold unpad at h ⊢
  cases hback : unpadBack x.reverse with
  | none => exact ⟨_, rfl⟩
  | some m => exact absurd (by rw [hback]; rfl) (h m)

/-- Behind the marker, `pad` puts the zeros that fill the block and no more. -/
theorem eq_pad_iff {x m : Bytes} {k : ℕ} (hx : x = m ++ 0x80 :: List.replicate k 0x00)
    (hblocks : x.length % 16 = 0) : x = pad m ↔ k < 16 := by
  have hlen : x.length = m.length + (k + 1) := by
    rw [hx, List.length_append, List.length_cons, List.length_replicate]
  constructor
  · intro hpad
    have := (pad_length m).2.2
    rw [← hpad, hlen] at this
    omega
  · intro hk
    have hcount : (16 - (m.length + 1) % 16) % 16 = k := by omega
    rw [hx, pad, hcount]

/-- **On whole blocks `unpad` accepts exactly what `pad` produces, unless sixteen zeros or more
follow the marker.** -/
theorem unpad_exact_iff {x : Bytes} (hblocks : x.length % 16 = 0) :
    ((∀ m, unpad x = .ok m ↔ x = pad m) ∧
        ((∀ m, x ≠ pad m) → ∃ error, unpad x = .error (.err error))) ↔
      ¬ ∃ m k, 16 ≤ k ∧ x = m ++ 0x80 :: List.replicate k 0x00 := by
  constructor
  · rintro ⟨hexact, -⟩ ⟨m, k, hk, hx⟩
    have hpad := (hexact m).mp (unpad_eq_ok.mpr ⟨k, hx⟩)
    have := (eq_pad_iff hx hblocks).mp hpad
    omega
  · intro hfew
    have hexact : ∀ m, unpad x = .ok m ↔ x = pad m := by
      intro m
      constructor
      · intro hok
        obtain ⟨k, hx⟩ := unpad_eq_ok.mp hok
        refine (eq_pad_iff hx hblocks).mpr ?_
        by_contra hk
        exact hfew ⟨m, k, by omega, hx⟩
      · intro hpad
        rw [hpad, unpad_pad]
    refine ⟨hexact, ?_⟩
    intro hnone
    exact unpad_error_of_not_ok fun m hok => hnone m ((hexact m).mp hok)

/-- One block that `pad` produces. -/
theorem unpad_exact_iff_block :
    (pad [0x31, 0x32]).length % 16 = 0 ∧
      (((∀ m, unpad (pad [0x31, 0x32]) = .ok m ↔ pad [0x31, 0x32] = pad m) ∧
        ((∀ m, pad [0x31, 0x32] ≠ pad m) →
          ∃ error, unpad (pad [0x31, 0x32]) = .error (.err error))) ↔
        ¬ ∃ m k, 16 ≤ k ∧ pad [0x31, 0x32] = m ++ 0x80 :: List.replicate k 0x00) :=
  ⟨by decide, unpad_exact_iff (by decide)⟩

/-- The marker and thirty-one zeros are two whole blocks. They are taken for the padding of the
empty plaintext, which is one block long. -/
theorem unpad_two_blocks :
    (0x80 :: List.replicate 31 0x00 : Bytes).length = 32 ∧
      unpad (0x80 :: List.replicate 31 0x00) = .ok [] ∧
      ∀ m, (0x80 :: List.replicate 31 0x00 : Bytes) ≠ pad m := by
  refine ⟨by decide, by decide, ?_⟩
  intro m h
  have hok : unpad (0x80 :: List.replicate 31 0x00) = .ok m := by rw [h, unpad_pad]
  have hnil : unpad (0x80 :: List.replicate 31 0x00) = .ok [] := by decide
  obtain rfl : [] = m := Except.ok.inj (hnil.symm.trans hok)
  exact absurd h (by decide)

end MynaCard
