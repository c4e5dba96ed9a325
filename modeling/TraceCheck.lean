import TraceCheck.Proofs.CautiousRule
import TraceCheck.Proofs.CheckedObservation
import TraceCheck.Proofs.Containment
import TraceCheck.Proofs.CountingLoop
import TraceCheck.Proofs.FaultLatch
import TraceCheck.Proofs.Footprint
import TraceCheck.Proofs.InvisibleCalls
import TraceCheck.Proofs.LineDecoding
import TraceCheck.Proofs.LongArithmetic
import TraceCheck.Proofs.LongShifts
import TraceCheck.Proofs.Monotonicity
import TraceCheck.Proofs.Precision
import TraceCheck.Proofs.Reachability
import TraceCheck.Proofs.Replay
import TraceCheck.Proofs.Rotation
import TraceCheck.Proofs.Soundness
import TraceCheck.Proofs.StackLedger
import TraceCheck.Proofs.StatusByte
import TraceCheck.Proofs.StreamReading
import TraceCheck.Proofs.Subtraction
import TraceCheck.Proofs.TargetForms
import TraceCheck.Proofs.TemplateRendering
import TraceCheck.Proofs.UnambiguousText
import TraceCheck.Proofs.ValueIndependence
import TraceCheck.Proofs.VariantIndependence
import TraceCheck.Session
import TraceCheck.Sweep
import TraceCheck.Transcript
