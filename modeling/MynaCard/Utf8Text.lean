import MynaCard.Utf8

/-!
# Text written in UTF-8

The bytes of a text are those of its characters one after the other. The readers of `Utf8` give the
text back (`fromUtf8_encode`): each character is one sequence, the ranges of its first and second byte
are those that no overlong form and no surrogate falls in, and the next character begins right
behind it.
-/

namespace MynaCard.Utf8

/-- The bytes of a text. -/
def encode (s : String) : Bytes := s.toList.flatMap String.utf8EncodeChar

/-! ### Bytes by their numbers -/

theorem isContinuation_of_mem {b : UInt8} (h : 0x80 ≤ b.toNat ∧ b.toNat < 0xC0) :
    isContinuation b = true := by
  have hall : ∀ b : UInt8, 0x80 ≤ b.toNat ∧ b.toNat < 0xC0 → isContinuation b = true := by
    decide +kernel
  exact hall b h

theorem width_of_mem (b : UInt8) :
    (b.toNat < 0x80 → width b = 1) ∧ (0xC2 ≤ b.toNat → b.toNat < 0xE0 → width b = 2) ∧
      (0xE0 ≤ b.toNat → b.toNat < 0xF0 → width b = 3) ∧
      (0xF0 ≤ b.toNat → b.toNat < 0xF5 → width b = 4) := by
  have hall : ∀ b : UInt8,
      (b.toNat < 0x80 → width b = 1) ∧ (0xC2 ≤ b.toNat → b.toNat < 0xE0 → width b = 2) ∧
        (0xE0 ≤ b.toNat → b.toNat < 0xF0 → width b = 3) ∧
        (0xF0 ≤ b.toNat → b.toNat < 0xF5 → width b = 4) := by
    decide +kernel
  exact hall b

/-- The second byte is a continuation byte, outside the ranges four first bytes keep out. -/
theorem isSecond_of_mem {first b : UInt8} (hb : 0x80 ≤ b.toNat ∧ b.toNat < 0xC0)
    (hE0 : first.toNat = 0xE0 → 0xA0 ≤ b.toNat) (hED : first.toNat = 0xED → b.toNat < 0xA0)
    (hF0 : first.toNat = 0xF0 → 0x90 ≤ b.toNat) (hF4 : first.toNat = 0xF4 → b.toNat < 0x90) :
    isSecond first b = true := by
  unfold isSecond
  split_ifs with h1 h2 h3 h4
  · subst h1
    have := hE0 rfl
    simp only [Bool.and_eq_true, decide_eq_true_eq, UInt8.le_iff_toNat_le, UInt8.reduceToNat]
    omega
  · subst h2
    have := hED rfl
    simp only [Bool.and_eq_true, decide_eq_true_eq, UInt8.le_iff_toNat_le, UInt8.reduceToNat]
    omega
  · subst h3
    have := hF0 rfl
    simp only [Bool.and_eq_true, decide_eq_true_eq, UInt8.le_iff_toNat_le, UInt8.reduceToNat]
    omega
  · subst h4
    have := hF4 rfl
    simp only [Bool.and_eq_true, decide_eq_true_eq, UInt8.le_iff_toNat_le, UInt8.reduceToNat]
    omega
  · exact isContinuation_of_mem hb

/-! ### One sequence -/

/-- A sequence of the width its first byte announces is read as its character. -/
theorem decode_sequence {first : UInt8} (tail rest : Bytes)
    (hwidth : width first = 1 + tail.length)
    (hsecond : ∀ b ∈ tail.head?, isSecond first b = true)
    (hothers : ∀ b ∈ tail.tail, isContinuation b = true) :
    decode (first :: (tail ++ rest)) = some (scalar first tail) :: decode rest := by
  have htail : sequenceTail first (tail ++ rest) = tail.length := by
    cases tail with
    | nil =>
      rw [List.length_nil, Nat.add_zero] at hwidth
      rw [List.nil_append, List.length_nil]
      unfold sequenceTail
      split
      · rfl
      · rw [if_pos (Or.inl hwidth.le)]
    | cons second others =>
      rw [List.length_cons] at hwidth
      have hfull : (others ++ rest).take (width first - 2) = others := by
        rw [show width first - 2 = others.length by omega, List.take_left]
      show (if width first ≤ 1 ∨ isSecond first second = false then 0
        else 1 + (((others ++ rest).take (width first - 2)).takeWhile isContinuation).length) = _
      rw [if_neg (by rw [hsecond second rfl]; simp; omega), hfull,
        show others.takeWhile isContinuation = others from List.takeWhile_eq_self_iff.mpr hothers,
        List.length_cons]
      omega
  rw [decode, htail, if_pos hwidth.symm, List.take_left, List.drop_left]

/-! ### One character -/

theorem ofNat_of_lt {n : ℕ} (h : n < 256) : (UInt8.ofNat n).toNat = n := by
  rw [UInt8.toNat_ofNat']
  omega

/-- **The bytes of a character are read as the character.** -/
theorem decode_utf8EncodeChar (c : Char) (rest : Bytes) :
    decode (String.utf8EncodeChar c ++ rest) = some c :: decode rest := by
  have hvalid : c.toNat < 0xD800 ∨ 0xDFFF < c.toNat ∧ c.toNat < 0x110000 := c.valid
  have hback : Char.ofNat c.toNat = c := Char.ofNat_toNat c
  unfold String.utf8EncodeChar
  change decode ((if c.toNat ≤ 0x7F then [UInt8.ofNat c.toNat]
    else if c.toNat ≤ 0x7FF then
      [UInt8.ofNat (c.toNat / 64 % 0x20 + 0xC0), UInt8.ofNat (c.toNat % 0x40 + 0x80)]
    else if c.toNat ≤ 0xFFFF then
      [UInt8.ofNat (c.toNat / 4096 % 0x10 + 0xE0), UInt8.ofNat (c.toNat / 64 % 0x40 + 0x80),
        UInt8.ofNat (c.toNat % 0x40 + 0x80)]
    else
      [UInt8.ofNat (c.toNat / 262144 % 0x08 + 0xF0), UInt8.ofNat (c.toNat / 4096 % 0x40 + 0x80),
        UInt8.ofNat (c.toNat / 64 % 0x40 + 0x80), UInt8.ofNat (c.toNat % 0x40 + 0x80)]) ++ rest) = _
  generalize c.toNat = v at hvalid hback ⊢
  have hlast := ofNat_of_lt (show v % 0x40 + 0x80 < 256 by omega)
  have hmid := ofNat_of_lt (show v / 64 % 0x40 + 0x80 < 256 by omega)
  have hhigh := ofNat_of_lt (show v / 4096 % 0x40 + 0x80 < 256 by omega)
  split_ifs with h1 h2 h3
  · -- one byte
    have hfirst := ofNat_of_lt (show v < 256 by omega)
    have hwidth := (width_of_mem (UInt8.ofNat v)).1 (by omega)
    have hseq := decode_sequence [] rest hwidth (fun b hb => nomatch hb)
      (fun b hb => nomatch hb)
    rw [List.nil_append] at hseq
    rw [List.singleton_append, hseq]
    simp [scalar, hfirst, hback]
  · -- two bytes
    have hfirst := ofNat_of_lt (show v / 64 % 0x20 + 0xC0 < 256 by omega)
    have hwidth := (width_of_mem (UInt8.ofNat (v / 64 % 0x20 + 0xC0))).2.1 (by omega) (by omega)
    have hseq := decode_sequence [UInt8.ofNat (v % 0x40 + 0x80)] rest hwidth
      (by
        intro b hb
        obtain rfl := Option.some.inj hb
        exact isSecond_of_mem (by omega) (by omega) (by omega) (by omega) (by omega))
      (fun b hb => nomatch hb)
    rw [List.cons_append, hseq]
    simp only [scalar, List.length_singleton, List.foldl_cons, List.foldl_nil, hfirst, hlast]
    rw [show (v / 64 % 32 + 192) % 32 * 64 + (v % 64 + 128) % 64 = v by omega, hback]
  · -- three bytes
    have hfirst := ofNat_of_lt (show v / 4096 % 0x10 + 0xE0 < 256 by omega)
    have hwidth := (width_of_mem (UInt8.ofNat (v / 4096 % 0x10 + 0xE0))).2.2.1 (by omega) (by omega)
    have hseq := decode_sequence
      [UInt8.ofNat (v / 64 % 0x40 + 0x80), UInt8.ofNat (v % 0x40 + 0x80)] rest hwidth
      (by
        intro b hb
        obtain rfl := Option.some.inj hb
        exact isSecond_of_mem (by omega) (by omega) (by omega) (by omega) (by omega))
      (by
        intro b hb
        obtain rfl := List.mem_singleton.mp hb
        exact isContinuation_of_mem (by omega))
    rw [List.cons_append, hseq]
    simp only [scalar, List.length_cons, List.length_nil, List.foldl_cons, List.foldl_nil, hfirst,
      hmid, hlast]
    rw [show ((v / 4096 % 16 + 224) % 16 * 64 + (v / 64 % 64 + 128) % 64) * 64 +
      (v % 64 + 128) % 64 = v by omega, hback]
  · -- four bytes
    have hfirst := ofNat_of_lt (show v / 262144 % 0x08 + 0xF0 < 256 by omega)
    have hwidth := (width_of_mem (UInt8.ofNat (v / 262144 % 0x08 + 0xF0))).2.2.2 (by omega)
      (by omega)
    have hseq := decode_sequence
      [UInt8.ofNat (v / 4096 % 0x40 + 0x80), UInt8.ofNat (v / 64 % 0x40 + 0x80),
        UInt8.ofNat (v % 0x40 + 0x80)] rest hwidth
      (by
        intro b hb
        obtain rfl := Option.some.inj hb
        exact isSecond_of_mem (by omega) (by omega) (by omega) (by omega) (by omega))
      (by
        intro b hb
        simp only [List.tail_cons, List.mem_cons, List.not_mem_nil, or_false] at hb
        rcases hb with rfl | rfl
        · exact isContinuation_of_mem (by omega)
        · exact isContinuation_of_mem (by omega))
    rw [List.cons_append, hseq]
    simp only [scalar, List.length_cons, List.length_nil, List.foldl_cons, List.foldl_nil, hfirst,
      hhigh, hmid, hlast]
    rw [show (((v / 262144 % 8 + 240) % 8 * 64 + (v / 4096 % 64 + 128) % 64) * 64 +
      (v / 64 % 64 + 128) % 64) * 64 + (v % 64 + 128) % 64 = v by omega, hback]

/-! ### Texts -/

theorem decode_flatMap (cs : List Char) :
    decode (cs.flatMap String.utf8EncodeChar) = cs.map some := by
  induction cs with
  | nil => rw [List.flatMap_nil, decode, List.map_nil]
  | cons c cs ih => rw [List.flatMap_cons, decode_utf8EncodeChar, ih, List.map_cons]

theorem decode_encode (s : String) : decode (encode s) = s.toList.map some := decode_flatMap _

/-- **A text that is written is read.** -/
theorem fromUtf8_encode (s : String) : fromUtf8 (encode s) = some s := by
  have hmap : ∀ cs : List Char, (cs.map some).mapM id = some cs := by
    intro cs
    induction cs with
    | nil => rfl
    | cons c cs ih => simp [ih]
  rw [fromUtf8, decode_encode, hmap, Option.map_some, String.ofList_toList]

/-- The lossy reader loses nothing of a text. -/
theorem fromUtf8Lossy_encode (s : String) : fromUtf8Lossy (encode s) = s := by
  rw [fromUtf8Lossy, decode_encode, List.map_map]
  simp [Function.comp_def]

end MynaCard.Utf8
