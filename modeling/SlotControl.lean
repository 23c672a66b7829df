import SlotControl.Cluster.Event
import SlotControl.Main
import SlotControl.Proofs.Admission
import SlotControl.Proofs.Algebra
import SlotControl.Proofs.Canonical
import SlotControl.Proofs.Capacity
import SlotControl.Proofs.Claims
import SlotControl.Proofs.Confirmation
import SlotControl.Proofs.Conservation
import SlotControl.Proofs.Containment
import SlotControl.Proofs.Convergence
import SlotControl.Proofs.Course
import SlotControl.Proofs.Dimensions
import SlotControl.Proofs.Faults
import SlotControl.Proofs.Fitting
import SlotControl.Proofs.Fulfilment
import SlotControl.Proofs.Identifiers
import SlotControl.Proofs.LateAnswers
import SlotControl.Proofs.Lifecycle
import SlotControl.Proofs.Messages
import SlotControl.Proofs.Outstanding
import SlotControl.Proofs.Parsing
import SlotControl.Proofs.Passage
import SlotControl.Proofs.Postings
import SlotControl.Proofs.Rearrangement
import SlotControl.Proofs.Reconciliation
import SlotControl.Proofs.Recording
import SlotControl.Proofs.Repetition
import SlotControl.Proofs.ResourceTexts
import SlotControl.Proofs.Robustness
import SlotControl.Proofs.Scanning
import SlotControl.Proofs.Scripts
import SlotControl.Proofs.Separation
import SlotControl.Proofs.Settlement
import SlotControl.Proofs.Soundness
import SlotControl.Proofs.Steps
import SlotControl.Proofs.Timing
import SlotControl.Proofs.Wildcard
import SlotControl.Proofs.Withdrawal
import SlotControl.Session
import SlotControl.SharedCell
