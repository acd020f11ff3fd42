import TezosSigner.Key.Simulated
import TezosSigner.Operation.Writer
import TezosSigner.Proofs.Alike
import TezosSigner.Proofs.AllowList
import TezosSigner.Proofs.Amendment
import TezosSigner.Proofs.Amount
import TezosSigner.Proofs.Announcement
import TezosSigner.Proofs.Approval
import TezosSigner.Proofs.Audit
import TezosSigner.Proofs.Base58
import TezosSigner.Proofs.Buffer
import TezosSigner.Proofs.Cell
import TezosSigner.Proofs.Chains
import TezosSigner.Proofs.Chunk
import TezosSigner.Proofs.Chunking
import TezosSigner.Proofs.Consent
import TezosSigner.Proofs.Delegation
import TezosSigner.Proofs.Dispatch
import TezosSigner.Proofs.Ending
import TezosSigner.Proofs.Epoch
import TezosSigner.Proofs.Era
import TezosSigner.Proofs.Fee
import TezosSigner.Proofs.Filling
import TezosSigner.Proofs.Flash
import TezosSigner.Proofs.Grammar
import TezosSigner.Proofs.Guard
import TezosSigner.Proofs.Image
import TezosSigner.Proofs.Lifecycle
import TezosSigner.Proofs.Literal
import TezosSigner.Proofs.Lockstep
import TezosSigner.Proofs.ManagerScript
import TezosSigner.Proofs.Marks
import TezosSigner.Proofs.Mirror
import TezosSigner.Proofs.Numeral
import TezosSigner.Proofs.Path
import TezosSigner.Proofs.Plan
import TezosSigner.Proofs.Quiet
import TezosSigner.Proofs.Reading
import TezosSigner.Proofs.Record
import TezosSigner.Proofs.Report
import TezosSigner.Proofs.Resident
import TezosSigner.Proofs.Residue
import TezosSigner.Proofs.RoundTrip
import TezosSigner.Proofs.Run
import TezosSigner.Proofs.Septets
import TezosSigner.Proofs.Shown
import TezosSigner.Proofs.Spelling
import TezosSigner.Proofs.Step
import TezosSigner.Proofs.Subject
import TezosSigner.Proofs.Succession
import TezosSigner.Proofs.Varint
import TezosSigner.Proofs.Veil
import TezosSigner.Proofs.Verdict
import TezosSigner.Proofs.Wallet
import TezosSigner.Signer
