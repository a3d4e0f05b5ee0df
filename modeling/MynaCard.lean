import MynaCard.Bytes
import MynaCard.Error
import MynaCard.Ber
import MynaCard.PrefixCode
import MynaCard.BerGrammar
import MynaCard.Apdu
import MynaCard.IsoApdu
import MynaCard.Dialogue
import MynaCard.Card
import MynaCard.CardExchange
import MynaCard.Data
import MynaCard.TlvFields
import MynaCard.Ap.Surface
import MynaCard.Ap.Text
import MynaCard.SignedRecords
import MynaCard.SignedCardFace
import MynaCard.Cbc
import MynaCard.SecureMessaging
import MynaCard.SessionExchange
import MynaCard.ReadCalls
import MynaCard.SessionCounters
import MynaCard.SessionPlaintexts
import MynaCard.Presentations
import MynaCard.Overflow
import MynaCard.OverflowReads
import MynaCard.FileCard
import MynaCard.ReadAgreement
import MynaCard.Ap.Common
import MynaCard.Ap.Juki
import MynaCard.Ap.Jpki
import MynaCard.Mf
import MynaCard.Wrappers
import MynaCard.CurrentEf
import MynaCard.WrapperRuns
import MynaCard.Ca
import MynaCard.CardCertificates
import MynaCard.OffsetTables
import MynaCard.DigestedAttributes
import MynaCard.Certificates
import MynaCard.Roots
import MynaCard.FileResults
import MynaCard.Addresses
import MynaCard.SessionLatch
import MynaCard.CallReturns
import MynaCard.Cryptograms
import MynaCard.FileBytes
import MynaCard.CertificateForms
import MynaCard.CallBudgets
import MynaCard.RecordFiles
import MynaCard.KeySizes
import MynaCard.Iteration
import MynaCard.BerIteration
import MynaCard.SimpleRecords
import MynaCard.DigestInfos
import MynaCard.Calendar
import MynaCard.UnixDates
import MynaCard.VerificationCodes
import MynaCard.Executions
import MynaCard.Guarded
import MynaCard.Lockouts
import MynaCard.KeyCard
import MynaCard.KeyOperations
import MynaCard.KeyRuns
import MynaCard.Alike
import MynaCard.PinTraffic
import MynaCard.FailFast
import MynaCard.LostAnswers
import MynaCard.SecureCard
import MynaCard.SecureOperations
import MynaCard.SecureRuns
import MynaCard.SecureHost
import MynaCard.BerWriter
import MynaCard.FieldFiles
import MynaCard.Encodings
import MynaCard.Utf8Text
import MynaCard.WrittenRecords
import MynaCard.WrittenFiles
import MynaCard.WrittenCertificates
import MynaCard.FileRights
import MynaCard.Readings
import MynaCard.FilesCard
import MynaCard.ReadingRuns
import MynaCard.WrittenReads
import MynaCard.RecordReads
import MynaCard.Deliveries
import MynaCard.DataObjects
import MynaCard.Signers
import MynaCard.SigningCard
import MynaCard.SigningRuns
