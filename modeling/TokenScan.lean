import TokenScan.Describe
import TokenScan.Reader.Listed
import TokenScan.Unicode.Survey
import TokenScan.Proofs.Runs
import TokenScan.Proofs.Units
import TokenScan.Proofs.Coverage
import TokenScan.Proofs.Partition
import TokenScan.Proofs.Splitting
import TokenScan.Proofs.Segmentation
import TokenScan.Proofs.RangeDecoding
import TokenScan.Proofs.Demand
import TokenScan.Proofs.Independence
import TokenScan.Proofs.Ending
import TokenScan.Proofs.Inspection
import TokenScan.Proofs.Borrowing
import TokenScan.Proofs.Termination
import TokenScan.Proofs.Ordering
import TokenScan.Proofs.Stalling
import TokenScan.Proofs.Scanning
import TokenScan.Proofs.Hints
import TokenScan.Proofs.Standing
