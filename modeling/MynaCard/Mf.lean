import MynaCard.Ap.Wrapper
import MynaCard.SimpleTlv

/-!
# The master file

`mf.rs`: the three record structured files JICSAP puts under the master file with their parsers, the
data objects GET DATA answers there, and the operations of `MasterFile`.
-/

namespace MynaCard

/-! ### The card identifier -/

structure Algorithms where
  bits : UInt8
  deriving DecidableEq, Repr

structure OptionalFunctions where
  bits : UInt8
  deriving DecidableEq, Repr

structure SpecVersion where
  value : UInt8
  deriving DecidableEq, Repr

/-- The card identifier of EF `001E`. -/
structure CardIdentifier where
  manufacturer : UInt8
  algorithms : Algorithms
  version : SpecVersion
  optionalFunctions : Option OptionalFunctions
  proprietary : Option Bytes
  deriving DecidableEq, Repr

/-- `CardIdentifier::parse`. -/
def CardIdentifier.parse (records : Bytes) : Run CardIdentifier := do
  let record ← orMalformed "card identifier has no manufacturer record (tag 00)"
    (← Simple.find records 0x00)
  match record with
  | [manufacturer, algorithms, version] => do
    let optionalFunctions ← Simple.find records 0x01
    let proprietary ← Simple.find records 0x02
    pure ⟨manufacturer, ⟨algorithms⟩, ⟨version⟩, (optionalFunctions.bind List.head?).map .mk,
      proprietary⟩
  | _ => malformed s!"manufacturer record must be 3 bytes, got {record.length}"

/-! ### The application folder list -/

/-- The application folder list of EF `2F10`. -/
structure ApplicationFolders where
  ownName : Bytes
  children : List Bytes
  deriving DecidableEq, Repr

namespace ApplicationFolders

/-- One item of the loop of `ApplicationFolders::parse`. `FE` is an invalidated record, `00` one that
holds nothing. -/
def parseItem (folders : ApplicationFolders) (item : Run Simple.Tlv) : Run ApplicationFolders := do
  let tlv ← item
  if tlv.tag = 0x01 then pure { folders with ownName := tlv.value }
  else if tlv.tag = 0x02 then pure { folders with children := folders.children ++ [tlv.value] }
  else if tlv.tag = 0xFE ∨ tlv.tag = 0x00 then pure folders
  else malformed s!"unexpected tag {hexUpper 2 tlv.tag.toNat} in an application folder list"

/-- `ApplicationFolders::parse`. -/
def parse (records : Bytes) : Run ApplicationFolders :=
  (Simple.iter records).foldlM parseItem ⟨[], []⟩

end ApplicationFolders

/-! ### The IC manufacturer -/

/-- The IC manufacturer ID of EF `2F11`. -/
structure IcManufacturerId where
  embedder : { b : Bytes // b.length = 5 }
  icManufacturer : UInt8
  icType : UInt16
  deriving DecidableEq, Repr

/-- `IcManufacturerId::parse`. -/
def IcManufacturerId.parse (records : Bytes) : Run IcManufacturerId := do
  let embedder ← orMalformed "no embedder record (tag 45)" (← Simple.find records 0x45)
  if h : embedder.length = 5 then do
    let manufacturer ← orMalformed "no IC manufacturer record (tag 46)"
      (← Simple.find records 0x46)
    match manufacturer with
    | [icManufacturer, hi, lo] => pure ⟨⟨embedder, h⟩, icManufacturer, u16OfBytes hi lo⟩
    | _ => malformed s!"IC manufacturer record must be 3 bytes, got {manufacturer.length}"
  else malformed s!"embedder record must be 5 bytes, got {embedder.length}"

/-! ### The wrapper -/

namespace MasterFile

namespace Ef

def cardIdentifier : UInt16 := 0x001E
def applicationFolderList : UInt16 := 0x2F10
def icManufacturerId : UInt16 := 0x2F11

end Ef

namespace Tag

def chainUpper : UInt16 := 0x00F8
def chainLower : UInt16 := 0x7F21

end Tag

variable (oc : OverflowChecks) (fuel : ℕ)

/-- `MasterFile::select`. -/
def select : CardM Unit := Card.selectDf fuel Ap.defaultDf

/-- `MasterFile::new`, which sends nothing. -/
def new : CardM Unit := pure ()

/-- `MasterFile::data_object`. -/
def dataObject (tag : UInt16) : CardM Bytes := Card.getData fuel tag

/-- The loop of `MasterFile::certificate_chain`. A status that says the object is absent ends it. -/
def certificateChainFrom : List UInt16 → List CardVerifiableCertificate →
    CardM (List CardVerifiableCertificate)
  | [], chain => pure chain
  | tag :: tags, chain => do
    match ← attempt (dataObject fuel tag) with
    | .ok raw => do
      let certificate ← CardVerifiableCertificate.parse oc raw
      certificateChainFrom tags (chain ++ [certificate])
    | .error e =>
      if e = .status ⟨0x6A88⟩ ∨ e = .status ⟨0x6A82⟩ then pure chain else throw (.err e)

/-- `MasterFile::certificate_chain`. -/
def certificateChain : CardM (List CardVerifiableCertificate) :=
  certificateChainFrom oc fuel [Tag.chainUpper, Tag.chainLower] []

/-- The loop of `MasterFile::read_records_one_by_one`, over the record numbers left. `6A83` says that
there is no such record. -/
def readRecordsUntil : List UInt8 → Bytes → CardM Bytes
  | [], out => pure out
  | record :: records, out => do
    match ← attempt (Card.readRecord fuel record) with
    | .ok data => if data = [] then pure out else readRecordsUntil records (out ++ data)
    | .error e => if e = .status ⟨0x6A83⟩ then pure out else throw (.err e)

/-- `MasterFile::read_records_one_by_one`. -/
def readRecordsOneByOne : CardM Bytes :=
  readRecordsUntil fuel ((List.range' 1 255).map UInt8.ofNat) []

/-- What `MasterFile::read_all_records` does on the selected file. `6A81` says that the card has not
got the multi-record form. -/
def readSelectedRecords : CardM Bytes := do
  match ← attempt (Card.readRecordsFrom fuel 1) with
  | .ok data => pure data
  | .error e => if e = .status ⟨0x6A81⟩ then readRecordsOneByOne fuel else throw (.err e)

/-- `MasterFile::read_all_records`. -/
def readAllRecords (id : UInt16) : CardM Bytes := Ap.onEf fuel id (readSelectedRecords fuel)

/-- `MasterFile::card_identifier`. -/
def cardIdentifier : CardM CardIdentifier :=
  Ap.parsed (readAllRecords fuel Ef.cardIdentifier) CardIdentifier.parse

/-- `MasterFile::application_folders`. -/
def applicationFolders : CardM ApplicationFolders :=
  Ap.parsed (readAllRecords fuel Ef.applicationFolderList) ApplicationFolders.parse

/-- `MasterFile::ic_manufacturer_id`. -/
def icManufacturerId : CardM IcManufacturerId :=
  Ap.parsed (readAllRecords fuel Ef.icManufacturerId) IcManufacturerId.parse

end MasterFile

end MynaCard
