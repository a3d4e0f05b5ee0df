import MynaCard.Bytes

/-!
# SHA-256

The hash function, on lists of bytes. A message is padded to whole blocks of 64 bytes; the words of a
block are expanded to one for each of the 64 rounds, and each round stirs its word into the state.
-/

namespace MynaCard.Sha256

/-- What the rounds add, one word each. -/
def roundConstants : List UInt32 := [
    0x428A2F98, 0x71374491, 0xB5C0FBCF, 0xE9B5DBA5, 0x3956C25B, 0x59F111F1, 0x923F82A4, 0xAB1C5ED5,
    0xD807AA98, 0x12835B01, 0x243185BE, 0x550C7DC3, 0x72BE5D74, 0x80DEB1FE, 0x9BDC06A7, 0xC19BF174,
    0xE49B69C1, 0xEFBE4786, 0x0FC19DC6, 0x240CA1CC, 0x2DE92C6F, 0x4A7484AA, 0x5CB0A9DC, 0x76F988DA,
    0x983E5152, 0xA831C66D, 0xB00327C8, 0xBF597FC7, 0xC6E00BF3, 0xD5A79147, 0x06CA6351, 0x14292967,
    0x27B70A85, 0x2E1B2138, 0x4D2C6DFC, 0x53380D13, 0x650A7354, 0x766A0ABB, 0x81C2C92E, 0x92722C85,
    0xA2BFE8A1, 0xA81A664B, 0xC24B8B70, 0xC76C51A3, 0xD192E819, 0xD6990624, 0xF40E3585, 0x106AA070,
    0x19A4C116, 0x1E376C08, 0x2748774C, 0x34B0BCB5, 0x391C0CB3, 0x4ED8AA4A, 0x5B9CCA4F, 0x682E6FF3,
    0x748F82EE, 0x78A5636F, 0x84C87814, 0x8CC70208, 0x90BEFFFA, 0xA4506CEB, 0xBEF9A3F7, 0xC67178F2]

/-- The eight words that are stirred. -/
structure State where
  a : UInt32
  b : UInt32
  c : UInt32
  d : UInt32
  e : UInt32
  f : UInt32
  g : UInt32
  h : UInt32

def State.initial : State :=
  ⟨0x6A09E667, 0xBB67AE85, 0x3C6EF372, 0xA54FF53A, 0x510E527F, 0x9B05688C, 0x1F83D9AB, 0x5BE0CD19⟩

def rotateRight (x n : UInt32) : UInt32 := (x >>> n) ||| (x <<< (32 - n))

def choose (x y z : UInt32) : UInt32 := (x &&& y) ^^^ (~~~x &&& z)

def majority (x y z : UInt32) : UInt32 := (x &&& y) ^^^ (x &&& z) ^^^ (y &&& z)

def bigSigma₀ (x : UInt32) : UInt32 := rotateRight x 2 ^^^ rotateRight x 13 ^^^ rotateRight x 22

def bigSigma₁ (x : UInt32) : UInt32 := rotateRight x 6 ^^^ rotateRight x 11 ^^^ rotateRight x 25

def smallSigma₀ (x : UInt32) : UInt32 := rotateRight x 7 ^^^ rotateRight x 18 ^^^ (x >>> 3)

def smallSigma₁ (x : UInt32) : UInt32 := rotateRight x 17 ^^^ rotateRight x 19 ^^^ (x >>> 10)

/-- One round, with its constant and its word. -/
def State.round (s : State) (k w : UInt32) : State :=
  let t₁ := s.h + bigSigma₁ s.e + choose s.e s.f s.g + k + w
  let t₂ := bigSigma₀ s.a + majority s.a s.b s.c
  ⟨t₁ + t₂, s.a, s.b, s.c, s.d + t₁, s.e, s.f, s.g⟩

/-- The rounds from the words of a block on: after each the first word is dropped and one more comes
at the end, made of four of the sixteen there are. -/
def State.rounds : List UInt32 → State → List UInt32 → State
  | [], s, _ => s
  | k :: ks, s, ws =>
    rounds ks (s.round k (ws.getD 0 0)) (ws.tail ++
      [smallSigma₁ (ws.getD 14 0) + ws.getD 9 0 + smallSigma₀ (ws.getD 1 0) + ws.getD 0 0])

def State.add (s t : State) : State :=
  ⟨s.a + t.a, s.b + t.b, s.c + t.c, s.d + t.d, s.e + t.e, s.f + t.f, s.g + t.g, s.h + t.h⟩

/-- The words of a block. -/
def words : ℕ → Bytes → List UInt32
  | 0, _ => []
  | n + 1, bytes => UInt32.ofNat (bigEndian (bytes.take 4)) :: words n (bytes.drop 4)

/-- The state after some blocks. -/
def State.blocks : ℕ → Bytes → State → State
  | 0, _, s => s
  | n + 1, bytes, s =>
    blocks n (bytes.drop 64) (s.add (s.rounds roundConstants (words 16 (bytes.take 64))))

def State.toBytes (s : State) : Bytes :=
  u32Bytes s.a ++ u32Bytes s.b ++ u32Bytes s.c ++ u32Bytes s.d ++ u32Bytes s.e ++ u32Bytes s.f ++
    u32Bytes s.g ++ u32Bytes s.h

@[simp] theorem State.toBytes_length (s : State) : s.toBytes.length = 32 := rfl

/-- A message with its padding: a one, zeros, and the number of its bits in the last eight bytes of a
block. -/
def pad (message : Bytes) : Bytes :=
  message ++ [0x80] ++ List.replicate ((119 - message.length % 64) % 64) 0x00 ++
    beBytes 8 (8 * message.length)

/-- The digest of a message. -/
def sha256 (message : Bytes) : { d : Bytes // d.length = 32 } :=
  ⟨(State.initial.blocks ((pad message).length / 64) (pad message)).toBytes, State.toBytes_length _⟩

end MynaCard.Sha256
