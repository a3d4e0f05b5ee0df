import MynaCard.Card
import MynaCard.Signature

/-!
# What the application wrappers share

`ap/mod.rs`. Each wrapper borrows a card and offers the operations known to work on one application.
Most of them have one of five shapes: select an EF, and then read it, read a record of it, query or
present its key, or present its key and replace it.
-/

namespace MynaCard.Ap

/-- `DEFAULT_DF`, the Issuer Security Domain. -/
def defaultDf : Bytes := [0xA0, 0x00, 0x00, 0x01, 0x51, 0x00, 0x00]

variable {α : Type}

/-- SELECT FILE of an EF, and then what is done on it. -/
def onEf (fuel : ℕ) (id : UInt16) (body : CardM α) : CardM α := do
  Card.selectEf fuel id
  body

/-- Read a transparent EF in full. -/
def readEf (pf : Platform) (fuel : ℕ) (id : UInt16) : CardM Bytes :=
  onEf fuel id (Card.readBinaryAll pf fuel)

/-- Read a transparent EF in full, filler included. -/
def readEfPhysical (fuel : ℕ) (id : UInt16) : CardM Bytes :=
  onEf fuel id (Card.readBinaryPhysical fuel)

/-- Read one record of a record structured EF. -/
def readRecord (fuel : ℕ) (id : UInt16) (record : UInt8) : CardM Bytes :=
  onEf fuel id (Card.readRecord fuel record)

/-- Present the key of an internal EF. -/
def verifyKey (fuel : ℕ) (key : UInt16) (value : Pin) : CardM Unit :=
  onEf fuel key (Card.verify fuel value)

/-- Ask for the attempts left on the key of an internal EF. -/
def keyRetries (fuel : ℕ) (key : UInt16) : CardM Retries :=
  onEf fuel key (Card.pinRetries fuel)

/-- Present the key of an internal EF and, if the card took it, do `replace`. -/
def changePin (fuel : ℕ) (key : UInt16) (currentPin : Pin) (replace : CardM Unit) : CardM Unit :=
  onEf fuel key do
    Card.verify fuel currentPin
    replace

/-- The file read, and then parsed. -/
def parsed (read : CardM Bytes) (parse : Bytes → Run α) : CardM α := do
  let raw ← read
  parse raw

/-- Have the card sign `data` with the application's default key. -/
def signDefault (rsa : RsaCrate) (fuel : ℕ) (data : Bytes) : CardM Bytes :=
  Card.callOk fuel (.withDataLe 0x80 Ins.computeSignature 0x00 0x00
    (sha256DigestInfo (rsa.sha256 data).1) 256)

end MynaCard.Ap
