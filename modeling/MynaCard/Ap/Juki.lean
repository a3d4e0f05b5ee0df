import MynaCard.Ap.Wrapper

/-!
# The resident registry network application

`ap/juki.rs`: the operations of `JukiAp`.
-/

namespace MynaCard.JukiAp

def df : Bytes := [0xD3, 0x92, 0x10, 0x00, 0x31, 0x00, 0x01, 0x01, 0x04, 0x01]

/-- `ef::PIN`. -/
def Ef.pin : UInt16 := 0x001C

variable (fuel : ℕ)

/-- `JukiAp::select`. -/
def select : CardM Unit := Card.selectDf fuel df

/-- `JukiAp::read_record`. -/
def readRecord (id : UInt16) (record : UInt8) : CardM Bytes := Ap.readRecord fuel id record

/-- `JukiAp::verify_pin`. -/
def verifyPin (pin : Pin) : CardM Unit := Ap.verifyKey fuel Ef.pin pin

/-- `JukiAp::change_pin`. -/
def changePin (currentPin newPin : Pin) : CardM Unit :=
  Ap.changePin fuel Ef.pin currentPin (Card.changeKey fuel newPin)

/-- `JukiAp::pin_retries`. -/
def pinRetries : CardM Retries := Ap.keyRetries fuel Ef.pin

end MynaCard.JukiAp
