import MynaCard.Data

/-!
# The CA keys of the card-verifiable certificates

`ca.rs`: the six keys the 券面 applications' certificates are issued under, three of the production
hierarchy and three of the test hierarchy, and the search for one by its 証明者鍵ID. No two share
an identifier, so the search gives the key of the identifier (`find_eq_some_iff`), if it has one
(`find_eq_none_iff`).
-/

namespace MynaCard

/-- A CA public key, with the 証明者鍵ID that names it. -/
structure CaKey where
  keyId : KeyId
  modulus : Bytes
  exponent : Bytes
  deriving DecidableEq

/-- `CaKey::to_public_key`. -/
def CaKey.toPublicKey (k : CaKey) : RsaPublicKey := ⟨k.exponent, k.modulus⟩

namespace Ca

/-- The public exponent of every key here. -/
def e65537 : Bytes := [0x01, 0x00, 0x01]

/-- Modulus of the CA key for 証明者鍵ID `"5000020"`, the MF level chain. -/
def modulus5000020 : Bytes :=
  [0xB6, 0x2D, 0x08, 0x11, 0x45, 0xD3, 0x4A, 0xCE, 0xB0, 0x22, 0xBC, 0x2F, 0x0A, 0x08, 0xD8, 0xB3,
   0x90, 0xE4, 0x2F, 0xFE, 0xEE, 0xC9, 0x34, 0x72, 0xF6, 0x75, 0xEC, 0x33, 0x50, 0x7B, 0xBC, 0xE9,
   0x82, 0xC2, 0x2F, 0x33, 0xB7, 0x30, 0x4C, 0xF1, 0x76, 0x39, 0xCE, 0x75, 0xA1, 0xD0, 0xFD, 0x1E,
   0x75, 0xFF, 0xAD, 0x86, 0xB0, 0xD7, 0x2C, 0xCC, 0xF0, 0xD0, 0xB0, 0x51, 0x36, 0xDD, 0xB7, 0x26,
   0x14, 0x00, 0xC0, 0x16, 0x0C, 0x71, 0x38, 0x72, 0xE1, 0xE8, 0x3C, 0x48, 0xA2, 0xA0, 0x08, 0x18,
   0x14, 0x7F, 0xEF, 0xBF, 0x0B, 0x09, 0xF6, 0x43, 0xEE, 0x4B, 0x32, 0x84, 0x19, 0xE8, 0x76, 0x37,
   0x67, 0xAD, 0xBE, 0xAE, 0xBA, 0x88, 0xD4, 0x9C, 0x3B, 0x44, 0xA5, 0xB8, 0xF8, 0xAD, 0x79, 0x4F,
   0xCF, 0x64, 0xA4, 0x16, 0x1A, 0x9F, 0xE8, 0xB9, 0x76, 0x60, 0xFC, 0xA4, 0x69, 0x41, 0x14, 0x59,
   0x4D, 0x4B, 0x84, 0x98, 0xFE, 0x1E, 0x52, 0x50, 0x20, 0x86, 0xAB, 0xC1, 0xB0, 0xED, 0xA0, 0x04,
   0xD3, 0x9D, 0x95, 0x19, 0x3B, 0x40, 0x31, 0xAB, 0x0C, 0x51, 0x60, 0x08, 0xBB, 0xAF, 0xFC, 0x49,
   0xAC, 0x6A, 0x2E, 0xBE, 0x54, 0x4E, 0xF4, 0x9E, 0xA3, 0xB7, 0x90, 0xCD, 0x13, 0xF1, 0x33, 0x89,
   0x6D, 0xF8, 0xDA, 0x63, 0xE1, 0x5C, 0xE8, 0xAC, 0x0D, 0xC2, 0x76, 0xF7, 0x6F, 0x08, 0x0B, 0x72,
   0x3E, 0x66, 0x48, 0xF1, 0x0A, 0x6F, 0xB7, 0xB0, 0x8E, 0x5C, 0x69, 0xDC, 0xDF, 0xAD, 0xD5, 0x2F,
   0x7B, 0x5B, 0x6D, 0x17, 0x40, 0xCF, 0x8E, 0x35, 0x6B, 0xC6, 0x85, 0xB3, 0x1D, 0x7C, 0x45, 0x56,
   0x80, 0xCD, 0x95, 0xD3, 0xB4, 0xB2, 0x0E, 0xA8, 0x09, 0x4F, 0x00, 0x66, 0x0A, 0xE7, 0x74, 0xEE,
   0xBA, 0xB2, 0x87, 0x54, 0x87, 0xA1, 0x21, 0x0C, 0xA8, 0x72, 0x21, 0xA0, 0xB6, 0x3A, 0x3E, 0x83]

/-- Modulus of the CA key for 証明者鍵ID `"5000023"`, the 券面事項確認AP. -/
def modulus5000023 : Bytes :=
  [0xB2, 0xF7, 0x40, 0xF0, 0xAD, 0x86, 0xD1, 0x7C, 0xF3, 0xF5, 0x37, 0xD2, 0x3B, 0x4B, 0x3C, 0x65,
   0xA3, 0xCB, 0x58, 0x47, 0x4D, 0x85, 0x7F, 0x55, 0xD0, 0xB9, 0xBC, 0x04, 0x11, 0xB1, 0xCB, 0x08,
   0x49, 0x06, 0x8D, 0xE3, 0x32, 0xA5, 0x0D, 0x63, 0xB3, 0xE6, 0x92, 0x1C, 0x9C, 0xCB, 0xE6, 0x15,
   0x64, 0x96, 0xEF, 0xB0, 0x4B, 0xE8, 0xFF, 0xCC, 0x74, 0xFD, 0xE9, 0xA2, 0x28, 0xA3, 0x6A, 0xD7,
   0xED, 0xCE, 0x97, 0x93, 0x20, 0x4E, 0x35, 0x97, 0x3D, 0xC9, 0x11, 0x10, 0x83, 0x65, 0x00, 0x2C,
   0x40, 0x16, 0x9E, 0x0B, 0x60, 0x01, 0x8D, 0xFB, 0x99, 0xE1, 0xE2, 0x31, 0x0D, 0x9A, 0x11, 0x0F,
   0xF0, 0xFC, 0x26, 0x9F, 0x1F, 0x22, 0x0C, 0x63, 0xB8, 0xA1, 0x51, 0x0D, 0xE5, 0xA6, 0x89, 0x82,
   0x20, 0xC7, 0x89, 0x08, 0xFC, 0x28, 0x0D, 0x8A, 0xA9, 0x5D, 0x5D, 0x11, 0x3B, 0x7C, 0xF0, 0x07,
   0x00, 0xF3, 0xFF, 0x5A, 0xD8, 0xB3, 0xD6, 0xAD, 0x2E, 0xB5, 0x3C, 0x7D, 0x56, 0x34, 0x98, 0xB4,
   0xA9, 0x38, 0xDE, 0xFF, 0xC9, 0xBD, 0xA3, 0x2B, 0xF4, 0x14, 0x6C, 0x1B, 0x07, 0xEF, 0x87, 0x0D,
   0x99, 0xEB, 0x35, 0xDE, 0x5D, 0x70, 0xAC, 0x18, 0x71, 0x58, 0x74, 0x27, 0x7A, 0x13, 0x15, 0x1D,
   0x21, 0x7D, 0x04, 0xD4, 0x2E, 0x97, 0x92, 0x39, 0x23, 0xA4, 0x0F, 0xBC, 0x7D, 0x06, 0xFA, 0xA8,
   0x33, 0x8C, 0xCB, 0xE8, 0x76, 0x62, 0x0F, 0x9B, 0x8E, 0xF4, 0x47, 0x1C, 0xD4, 0xB9, 0xE2, 0x9D,
   0x4E, 0xA6, 0x21, 0xE0, 0xFB, 0x8F, 0x1D, 0xC0, 0x4B, 0x48, 0x72, 0x10, 0x09, 0x7D, 0xBA, 0xAF,
   0x3D, 0x8E, 0x05, 0x50, 0xC7, 0x6A, 0x5B, 0x97, 0xCF, 0x20, 0x2F, 0xA4, 0x7C, 0x7A, 0x26, 0x22,
   0xF1, 0xC0, 0x84, 0xE6, 0x5C, 0x13, 0xD1, 0x3B, 0x8E, 0x7A, 0xB2, 0x26, 0xF5, 0xF5, 0x1F, 0x87]

/-- Modulus of the CA key for 証明者鍵ID `"5000033"`, the 券面入力補助AP. -/
def modulus5000033 : Bytes :=
  [0xD2, 0x46, 0x15, 0xF6, 0x35, 0x25, 0xE7, 0x40, 0xC8, 0x7E, 0x83, 0xED, 0x64, 0x78, 0x7E, 0x76,
   0xD1, 0x0A, 0x1F, 0x86, 0x52, 0xEB, 0xE1, 0xEA, 0x28, 0x93, 0x4D, 0x35, 0xCE, 0x3B, 0xF0, 0x77,
   0x16, 0xF5, 0xB7, 0x9E, 0x2B, 0xCB, 0x2A, 0xE2, 0xB9, 0x1B, 0x4F, 0x4C, 0x9F, 0xFB, 0x60, 0x24,
   0x97, 0xF5, 0x96, 0xD6, 0x59, 0xAF, 0x9D, 0x0A, 0x14, 0xB4, 0x5C, 0xDD, 0x73, 0x8E, 0xF5, 0x62,
   0x49, 0x34, 0x9B, 0x8C, 0xC7, 0xDB, 0x32, 0xF2, 0xD4, 0x33, 0xBD, 0x39, 0xBC, 0xC4, 0x4F, 0x50,
   0x3E, 0x88, 0x1D, 0x56, 0xC1, 0x49, 0xEC, 0xD5, 0x15, 0x5C, 0x1C, 0xE7, 0x46, 0x1F, 0xC3, 0xAC,
   0x4F, 0x55, 0xD0, 0xA3, 0x9C, 0xCA, 0xAA, 0xDF, 0xAE, 0x5B, 0x8A, 0xFA, 0x11, 0xCC, 0xF9, 0x1B,
   0xED, 0xC7, 0x74, 0x02, 0x3D, 0x11, 0xCA, 0x6E, 0xBA, 0x99, 0x00, 0x4F, 0x81, 0xC5, 0x41, 0xA7,
   0xD6, 0x7D, 0xDE, 0xD8, 0xC7, 0x24, 0xD6, 0xE2, 0x0B, 0x10, 0xA3, 0xDE, 0xAA, 0xE8, 0xC4, 0x3C,
   0x13, 0x7C, 0xCD, 0x71, 0xB2, 0x63, 0x74, 0x0E, 0x89, 0x79, 0x75, 0x2D, 0xE4, 0xD5, 0x67, 0x63,
   0x29, 0xCA, 0xBC, 0xBD, 0x7F, 0x3A, 0x77, 0xFC, 0x48, 0xA6, 0xF8, 0xE6, 0x1D, 0x39, 0x9B, 0x4A,
   0xC6, 0x66, 0x84, 0xA9, 0xFD, 0xFC, 0x99, 0xEC, 0xEF, 0x90, 0x0D, 0xD6, 0xFF, 0x7F, 0x0F, 0xDD,
   0x39, 0xE2, 0x3D, 0x16, 0x3F, 0x8A, 0x46, 0x8C, 0x62, 0xDB, 0xEA, 0xE0, 0x09, 0x06, 0xDF, 0xAD,
   0x5A, 0x89, 0xB4, 0x5C, 0xA5, 0xB7, 0x35, 0x3D, 0xC9, 0x98, 0xA8, 0x0D, 0x38, 0x03, 0xED, 0xA7,
   0x94, 0xB5, 0x5F, 0x99, 0xF5, 0x35, 0xD1, 0xC3, 0x9A, 0x24, 0x3C, 0x83, 0x52, 0xAD, 0x60, 0x2D,
   0x92, 0x6C, 0x38, 0x9D, 0x28, 0x16, 0xC9, 0x41, 0x34, 0x9E, 0xE2, 0x4E, 0x4F, 0x41, 0x59, 0x7F]

/-- Modulus of the CA key for 証明者鍵ID `"6000020"`, the MF level chain, test hierarchy. -/
def modulus6000020 : Bytes :=
  [0xD0, 0xCB, 0x63, 0x03, 0x39, 0x9E, 0xC8, 0x67, 0x27, 0xE3, 0xE9, 0xE5, 0x09, 0x96, 0x58, 0x09,
   0x56, 0xEE, 0x87, 0x83, 0x9F, 0x5B, 0x67, 0x4C, 0xF3, 0x40, 0x48, 0xB4, 0x70, 0x18, 0x02, 0x95,
   0x00, 0x84, 0x1B, 0x5E, 0x6F, 0x6C, 0x64, 0x3E, 0xAE, 0xFE, 0x04, 0x24, 0x82, 0x03, 0x7A, 0xCD,
   0x83, 0x92, 0xE6, 0xC6, 0xA3, 0x86, 0xFB, 0x77, 0xDD, 0xB3, 0xF1, 0xD5, 0x1B, 0xCA, 0xC7, 0x6E,
   0x46, 0x9A, 0x09, 0xCE, 0xC8, 0x23, 0xDC, 0x78, 0xC1, 0xEB, 0xDB, 0x5A, 0x7C, 0x5A, 0xA0, 0x4A,
   0xC7, 0x09, 0x4A, 0xD7, 0x4B, 0x38, 0x63, 0x76, 0x01, 0x24, 0x1F, 0x43, 0xD3, 0xE6, 0xC6, 0xA4,
   0x85, 0x0E, 0x5A, 0x4E, 0x32, 0x44, 0xA1, 0x38, 0xFB, 0xA5, 0xA2, 0xE2, 0x2C, 0x31, 0x31, 0x2E,
   0xF8, 0x69, 0x9B, 0x7E, 0x8D, 0xB9, 0x82, 0xAB, 0x7B, 0x09, 0x3C, 0x4A, 0xC1, 0x3F, 0x05, 0x69,
   0xBA, 0x86, 0xB6, 0xB8, 0x86, 0xC1, 0x07, 0x2E, 0xF1, 0x74, 0xB2, 0x18, 0x11, 0x81, 0xF6, 0xD1,
   0x6F, 0xFF, 0x90, 0x4B, 0xE6, 0x52, 0xF4, 0x7A, 0xFC, 0x5C, 0x59, 0x73, 0x66, 0xED, 0x2F, 0xF3,
   0xBE, 0x09, 0x50, 0x08, 0x08, 0x55, 0xA8, 0x89, 0x30, 0xD3, 0x12, 0xD8, 0xBE, 0x2B, 0xB4, 0xAA,
   0xE2, 0xB1, 0xC1, 0x98, 0x48, 0x06, 0x4B, 0xA7, 0xE9, 0x2C, 0xB7, 0x4E, 0x52, 0xE1, 0x9C, 0x1C,
   0xFA, 0xB8, 0x67, 0x6B, 0x18, 0x70, 0x6B, 0xEB, 0xF9, 0x13, 0xB5, 0x7F, 0x92, 0xAE, 0x74, 0x98,
   0xC0, 0x87, 0x50, 0xE4, 0x16, 0x57, 0xA1, 0x74, 0x6B, 0x26, 0xDA, 0x2B, 0x0D, 0xEF, 0xC8, 0x5D,
   0x28, 0x6B, 0x1B, 0x85, 0xAD, 0xC9, 0x73, 0x93, 0x56, 0x40, 0x3F, 0x6B, 0x6E, 0x18, 0xA1, 0x93,
   0x8A, 0x11, 0xE3, 0xEC, 0x04, 0x3C, 0x1C, 0xDC, 0x5E, 0xF0, 0x3A, 0x8D, 0x51, 0x40, 0x2C, 0xC5]

/-- Modulus of the CA key for 証明者鍵ID `"6000023"`, the 券面事項確認AP, test hierarchy. -/
def modulus6000023 : Bytes :=
  [0xE0, 0x8C, 0xA1, 0xCA, 0xA0, 0xE5, 0x8C, 0x5D, 0xF2, 0x4B, 0xFD, 0x67, 0xE4, 0x5B, 0x7C, 0xE4,
   0xB5, 0x0E, 0xFF, 0x82, 0x8C, 0x10, 0x56, 0x80, 0x55, 0xF7, 0xE0, 0x12, 0xB7, 0x21, 0x2E, 0x7D,
   0x28, 0x79, 0xB9, 0xE0, 0xB9, 0x51, 0xE7, 0xAC, 0x5A, 0x6D, 0xC0, 0xD7, 0xD3, 0xC3, 0x1C, 0x22,
   0x39, 0x51, 0xA1, 0xE2, 0x77, 0x4F, 0x39, 0x8C, 0xF4, 0x66, 0x02, 0xA8, 0xAE, 0xC0, 0x48, 0x98,
   0x71, 0x49, 0x81, 0xF8, 0x13, 0xCB, 0x9D, 0xBD, 0x2E, 0xF9, 0x06, 0x85, 0x28, 0xE9, 0x45, 0x03,
   0x61, 0xC0, 0x01, 0x54, 0x73, 0x8C, 0xA4, 0xDD, 0x79, 0xD1, 0x38, 0x09, 0x8B, 0x91, 0xFA, 0xE2,
   0x9A, 0x4F, 0xD7, 0x50, 0x55, 0x63, 0x67, 0xBB, 0x85, 0x41, 0x58, 0x95, 0x3A, 0xF5, 0x8C, 0x0E,
   0x8B, 0xBF, 0x28, 0x9C, 0x3A, 0x30, 0xE5, 0x95, 0xFE, 0xF0, 0x44, 0x51, 0x9E, 0x96, 0x7E, 0xF0,
   0x68, 0x6C, 0xBC, 0xF6, 0xEF, 0x6B, 0x9E, 0xD6, 0xFC, 0x2A, 0x19, 0xF8, 0x00, 0xCE, 0x07, 0xE9,
   0x29, 0xAC, 0x11, 0x55, 0x6F, 0x10, 0x73, 0x07, 0x73, 0x72, 0x27, 0x9B, 0xA1, 0x30, 0x21, 0x6F,
   0xC6, 0x80, 0xB7, 0xC3, 0x97, 0x88, 0xC8, 0xE7, 0x53, 0x4F, 0x71, 0xEE, 0xB4, 0xC0, 0x0C, 0x90,
   0x53, 0xFB, 0xF6, 0xE9, 0x2A, 0x07, 0x78, 0x4F, 0x26, 0x30, 0x8A, 0xF7, 0x8F, 0x9C, 0x18, 0x00,
   0x3E, 0xCB, 0xF1, 0x29, 0x65, 0xBD, 0x30, 0x30, 0x45, 0xB8, 0xA7, 0x63, 0x91, 0xC4, 0x31, 0x78,
   0x7F, 0xFC, 0x74, 0x5C, 0xC2, 0x74, 0x20, 0x66, 0x16, 0xD9, 0x1E, 0x81, 0xB3, 0x9B, 0xB9, 0xA2,
   0xDB, 0x4B, 0x64, 0xC4, 0xAD, 0x47, 0x83, 0x1A, 0xB0, 0x6C, 0xC4, 0x01, 0xF2, 0x16, 0x2F, 0x30,
   0xD9, 0x31, 0x6C, 0x38, 0x55, 0x7D, 0x4D, 0x96, 0xED, 0x5E, 0x76, 0xDB, 0x49, 0xB9, 0x09, 0x2D]

/-- Modulus of the CA key for 証明者鍵ID `"6000033"`, the 券面入力補助AP, test hierarchy. -/
def modulus6000033 : Bytes :=
  [0xB1, 0xFE, 0x36, 0xBD, 0x14, 0x7B, 0xF4, 0x1B, 0x20, 0x11, 0xB9, 0x15, 0x68, 0x67, 0xC4, 0x11,
   0x8B, 0x05, 0xAE, 0x47, 0xD6, 0x91, 0xCD, 0xB4, 0xA4, 0x46, 0x7F, 0x49, 0x49, 0xAF, 0xDD, 0x71,
   0xE2, 0x8E, 0x12, 0xB5, 0xC6, 0x1E, 0x68, 0xF0, 0x0B, 0x63, 0x9A, 0x6C, 0xCB, 0xCF, 0x44, 0x79,
   0x87, 0x61, 0xC7, 0x70, 0x0A, 0x81, 0xF6, 0x66, 0xC6, 0x78, 0x31, 0x43, 0x3B, 0x74, 0x2A, 0x2C,
   0x11, 0x26, 0x94, 0x26, 0x01, 0xE2, 0x53, 0x71, 0xB2, 0xB9, 0x36, 0x31, 0x06, 0x7D, 0x46, 0x6F,
   0x20, 0x1E, 0xAF, 0x31, 0x39, 0x3B, 0x1B, 0xD6, 0xA4, 0x75, 0x89, 0xFB, 0x57, 0xB3, 0x18, 0x97,
   0x35, 0xA2, 0x7A, 0x24, 0x58, 0x3F, 0xDE, 0x2B, 0xF2, 0x6C, 0x2A, 0x34, 0xD8, 0x64, 0x5F, 0xE0,
   0xE6, 0xE2, 0xFE, 0x90, 0x16, 0x12, 0xCE, 0xF8, 0xC7, 0x40, 0xC2, 0x28, 0x28, 0x9A, 0xF6, 0xD4,
   0x57, 0xAC, 0xA3, 0xB1, 0xAA, 0x2F, 0x9E, 0xBB, 0x56, 0xDA, 0x35, 0x91, 0xC3, 0x08, 0x30, 0xB8,
   0xAF, 0xE2, 0xA1, 0xCA, 0x99, 0x95, 0x1E, 0x67, 0x0B, 0x9E, 0x9C, 0x0B, 0x40, 0xEB, 0xDB, 0xEC,
   0x21, 0x2F, 0x94, 0x00, 0xE5, 0xAA, 0xF5, 0xC2, 0xB5, 0x10, 0x7D, 0xE3, 0x4A, 0xB6, 0xBC, 0x66,
   0x42, 0x5A, 0x86, 0xD7, 0x31, 0xA3, 0x92, 0xE8, 0x10, 0x01, 0xDE, 0xA1, 0xCE, 0x56, 0x59, 0x81,
   0xBE, 0x15, 0x82, 0x56, 0xAE, 0x05, 0x59, 0x8A, 0x2B, 0x8B, 0xFB, 0x04, 0xC1, 0xB6, 0x6E, 0xE2,
   0x00, 0x8E, 0x01, 0x9F, 0xB1, 0xB2, 0xBA, 0x37, 0x85, 0xE0, 0xCA, 0x78, 0xCA, 0x31, 0xEA, 0x5F,
   0x09, 0xB4, 0xD5, 0x50, 0x57, 0x7D, 0xBF, 0x12, 0xA7, 0x47, 0xAB, 0xD5, 0xE1, 0xC4, 0x50, 0xC0,
   0x75, 0x0D, 0xF9, 0x65, 0xF5, 0x3E, 0xA0, 0x8B, 0xBF, 0x12, 0xE4, 0x0A, 0x40, 0x57, 0xC7, 0x4D]

/-- `ca::KNOWN`: every CA key the crate knows, in 証明者鍵ID order. -/
def known : List CaKey :=
  [⟨⟨[0x35, 0x30, 0x30, 0x30, 0x30, 0x32, 0x30, 0x08, 0x05, 0x30, 0x30, 0x31, 0x00, 0x00, 0x00, 0xA8],
      rfl⟩, modulus5000020, e65537⟩,
   ⟨⟨[0x35, 0x30, 0x30, 0x30, 0x30, 0x32, 0x33, 0x08, 0x05, 0x30, 0x30, 0x31, 0x00, 0x00, 0x00, 0x00],
      rfl⟩, modulus5000023, e65537⟩,
   ⟨⟨[0x35, 0x30, 0x30, 0x30, 0x30, 0x33, 0x33, 0x08, 0x05, 0x30, 0x30, 0x31, 0x00, 0x00, 0x00, 0x00],
      rfl⟩, modulus5000033, e65537⟩,
   ⟨⟨[0x36, 0x30, 0x30, 0x30, 0x30, 0x32, 0x30, 0x08, 0x05, 0x30, 0x30, 0x31, 0x00, 0x00, 0x00, 0xA8],
      rfl⟩, modulus6000020, e65537⟩,
   ⟨⟨[0x36, 0x30, 0x30, 0x30, 0x30, 0x32, 0x33, 0x08, 0x05, 0x30, 0x30, 0x31, 0x00, 0x00, 0x00, 0x00],
      rfl⟩, modulus6000023, e65537⟩,
   ⟨⟨[0x36, 0x30, 0x30, 0x30, 0x30, 0x33, 0x33, 0x08, 0x05, 0x30, 0x30, 0x31, 0x00, 0x00, 0x00, 0x00],
      rfl⟩, modulus6000033, e65537⟩]

/-- `ca::find`. The identifier is compared in full, all 16 bytes. -/
def find (keyId : KeyId) : Option CaKey :=
  known.find? fun k => k.keyId == keyId

/-! ### The search -/

set_option maxRecDepth 1024 in
theorem find_eq_none_iff {keyId : KeyId} : find keyId = none ↔ ∀ k ∈ known, k.keyId ≠ keyId := by
  simp only [find, List.find?_eq_none, beq_iff_eq, ne_eq]

end Ca

end MynaCard
