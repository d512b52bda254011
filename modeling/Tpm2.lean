import Tpm2.PolicyLanguage.Expression
import Tpm2.Protocol.Frame.RoundTrip
import Tpm2.Protocol.RoundTrip
import Tpm2.PolicyLanguage.Binding
import Tpm2.Algorithm.Directory
import Tpm2.Crypto.Name
import Tpm2.Vtpm.Policy
import Tpm2.Vtpm.Key
import Tpm2.Vtpm.FileName
import Tpm2.Vtpm.Cache
import Tpm2.Algorithm.NameIndex
import Tpm2.Algorithm.Worklist
import Tpm2.Vtpm.Refinement
import Tpm2.Vtpm.Removal
import Tpm2.Vtpm.Loading
import Tpm2.Vtpm.Run
import Tpm2.Vtpm.Index
import Tpm2.Vtpm.Cascade
import Tpm2.Vtpm.Eviction
import Tpm2.Vtpm.Lookup
import Tpm2.Algorithm.Acyclic
import Tpm2.Vtpm.Ancestors
import Tpm2.Vtpm.Opening
import Tpm2.Device.Device
import Tpm2.Device.Outstanding
import Tpm2.Device.Session
import Tpm2.Sh.Task
import Tpm2.Sh.Sanitize
import Tpm2.Sh.Evict
import Tpm2.Sh.Authorization
import Tpm2.PolicyLanguage.Decompile
import Tpm2.PolicyLanguage.Replay
import Tpm2.ByteCodec.Tiling
import Tpm2.Protocol.Frame.Mutation
import Tpm2.Protocol.Frame.Outcome
import Tpm2.ByteCodec.Chunks
import Tpm2.Device.Responder
import Tpm2.Algorithm.Pagination
import Tpm2.Device.Buffers
import Tpm2.Device.Capability
import Tpm2.TpmKey.File
import Tpm2.TpmKey.RoundTrip
import Tpm2.Text.Hex
import Tpm2.Text.Split
import Tpm2.PolicyLanguage.Token
import Tpm2.PolicyLanguage.PcrSelect
import Tpm2.PolicyLanguage.PcrText
import Tpm2.PolicyLanguage.Parse
import Tpm2.PolicyLanguage.Phrase
import Tpm2.PolicyLanguage.Derivation
import Tpm2.PolicyLanguage.Display
import Tpm2.PolicyLanguage.Print
import Tpm2.PolicyLanguage.Reread
import Tpm2.PolicyLanguage.Reparse
import Tpm2.PolicyLanguage.Banks
import Tpm2.PolicyLanguage.PcrMeaning
import Tpm2.Protocol.Data.RcDecode
import Tpm2.Protocol.Size
import Tpm2.Vtpm.Allocation
import Tpm2.Vtpm.Chain
import Tpm2.Vtpm.PolicyList
import Tpm2.Vtpm.Record
import Tpm2.Vtpm.Capture
import Tpm2.Algorithm.Rounds
import Tpm2.Sh.NvRead
import Tpm2.Sh.Pcr
import Tpm2.Sh.PcrRead
import Tpm2.ByteCodec.Located
import Tpm2.Protocol.Offset
import Tpm2.Algorithm.Cells
import Tpm2.Algorithm.Mutating
import Tpm2.Protocol.Basic.Storage
import Tpm2.TpmKey.Secret
import Tpm2.Device.Posix
import Tpm2.Text.Masked
import Tpm2.Text.Glob
import Tpm2.Sh.Handle
import Tpm2.Crypto.Kdf
import Tpm2.Crypto.Template
import Tpm2.Algorithm.Rejection
import Tpm2.ByteCodec.Counting
import Tpm2.Crypto.Ecc
import Tpm2.Sh.Tracking
import Tpm2.Sh.Accounted
import Tpm2.Vtpm.Storing
import Tpm2.Vtpm.Persistence
import Tpm2.PolicyLanguage.Commands
import Tpm2.Sh.Policy
import Tpm2.Sh.Honest
import Tpm2.Sh.Reload
import Tpm2.Sh.StoredPolicy
import Tpm2.Crypto.External
import Tpm2.Crypto.TemplateText
import Tpm2.Sh.Cli
import Tpm2.Sh.Cleanup
import Tpm2.Sh.Command.Recovery
