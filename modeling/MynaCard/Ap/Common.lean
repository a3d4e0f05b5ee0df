import MynaCard.Ap.Wrapper
import MynaCard.SimpleTlv

/-!
# The common card application

`ap/common.rs`: the record that carries the card's own identity, and the operations of `CommonAp`.
-/

namespace MynaCard

/-! ### The record -/

/-- Record 1 of EF `0001`. -/
structure CardInfo where
  serial : String
  municipalityCode : String
  expiry : Date
  deriving DecidableEq, Repr

/-- ASCII bytes as text. -/
def asciiText (bytes : Bytes) : String := String.ofList (bytes.map fun b => Char.ofNat b.toNat)

/-- `CardInfo::parse`. -/
def CardInfo.parse (record : Bytes) : Run CardInfo := do
  let tlv ← Simple.parse record
  if tlv.tag ≠ 0x01 then malformed s!"expected tag 01, got {hexUpper 2 tlv.tag.toNat}"
  else if tlv.value.length ≠ 28 then
    malformed s!"card info must be 28 digits, got {tlv.value.length}"
  else if ¬ tlv.value.all isAsciiDigit then malformed "card info must be all digits"
  else do
    let expiry ← Date.parse (tlv.value.drop 20)
    pure ⟨asciiText (tlv.value.take 15), asciiText ((tlv.value.drop 15).take 5), expiry⟩

/-! ### The wrapper -/

namespace CommonAp

def df : Bytes := [0xD3, 0x92, 0x10, 0x00, 0x31, 0x00, 0x01, 0x01, 0x01, 0x00]

namespace Ef

def cardInfo : UInt16 := 0x0001
def internalAuthenticationKey : UInt16 := 0x0019
def pin : UInt16 := 0x001C

end Ef

variable (fuel : ℕ)

/-- `CommonAp::select`. -/
def select : CardM Unit := Card.selectDf fuel df

/-- `CommonAp::read_record`. -/
def readRecord (id : UInt16) (record : UInt8) : CardM Bytes := Ap.readRecord fuel id record

/-- `CommonAp::read_card_info`. -/
def readCardInfo : CardM CardInfo := Ap.parsed (readRecord fuel Ef.cardInfo 1) CardInfo.parse

/-- `CommonAp::internal_authenticate`. -/
def internalAuthenticate (challenge : Bytes) : CardM Bytes := do
  let sfi ← ShortEfId.fromEfId Ef.internalAuthenticationKey
  Card.internalAuthenticate fuel sfi challenge

/-- `CommonAp::verify_pin`. -/
def verifyPin (pin : Pin) : CardM Unit := Ap.verifyKey fuel Ef.pin pin

/-- `CommonAp::change_pin`. -/
def changePin (currentPin newPin : Pin) : CardM Unit :=
  Ap.changePin fuel Ef.pin currentPin (Card.changeKey fuel newPin)

/-- `CommonAp::pin_retries`. -/
def pinRetries : CardM Retries := Ap.keyRetries fuel Ef.pin

end CommonAp

end MynaCard
