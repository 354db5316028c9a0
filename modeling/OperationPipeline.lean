import OperationPipeline.Json.Reader
import OperationPipeline.Json.Inspected
import OperationPipeline.Outcome.Writer
import OperationPipeline.Script.Run
import OperationPipeline.Proofs.Specialization
import OperationPipeline.Proofs.Stopping
import OperationPipeline.Proofs.Order
import OperationPipeline.Proofs.Transparency
import OperationPipeline.Proofs.Blocks
import OperationPipeline.Proofs.Commitment
import OperationPipeline.Proofs.Raising
import OperationPipeline.Proofs.Escape
import OperationPipeline.Proofs.Messages
import OperationPipeline.Proofs.Checking
import OperationPipeline.Proofs.Recording
import OperationPipeline.Proofs.ErrorLists
import OperationPipeline.Proofs.Tracing
import OperationPipeline.Proofs.Relaying
import OperationPipeline.Proofs.Silence
import OperationPipeline.Proofs.Threading
import OperationPipeline.Proofs.Observers
import OperationPipeline.Proofs.Production
import OperationPipeline.Proofs.Reporting
import OperationPipeline.Proofs.LifeCycle
import OperationPipeline.Proofs.Flattening
import OperationPipeline.Proofs.Gathering
import OperationPipeline.Proofs.Pinning
import OperationPipeline.Proofs.Validity
import OperationPipeline.Proofs.AddedErrors
import OperationPipeline.Proofs.Batches
import OperationPipeline.Proofs.TraceText
import OperationPipeline.Proofs.Timing
import OperationPipeline.Proofs.Skipping
import OperationPipeline.Proofs.Outlines
