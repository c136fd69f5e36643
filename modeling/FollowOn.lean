import FollowOn.Comparison
import FollowOn.Form
import FollowOn.Ledger.Command
import FollowOn.Proofs.Evenness
import FollowOn.Proofs.Fingerprint
import FollowOn.Proofs.FirstCheck
import FollowOn.Proofs.Form
import FollowOn.Proofs.IdleCapital
import FollowOn.Proofs.Limits
import FollowOn.Proofs.Precedence
import FollowOn.Proofs.Reasons
import FollowOn.Proofs.Schema.Results
import FollowOn.Reference
import FollowOn.Schema.Comparison
import FollowOn.Schema.Plan
import FollowOn.Schema.Reference
import FollowOn.Proofs.Checks
import FollowOn.Proofs.Waterfall
import FollowOn.Proofs.Ledger.Course
import FollowOn.Proofs.Checked.Basic
import FollowOn.Proofs.Checked.Cap
import FollowOn.Proofs.Checked.Account
import FollowOn.Proofs.Checked.Pass
import FollowOn.Proofs.Checked.EvenShare
import FollowOn.Proofs.Checked.Proportion
import FollowOn.Proofs.Checked.Rounds
import FollowOn.Proofs.Checked.Weighted
import FollowOn.Proofs.Checked.Strategy
import FollowOn.Proofs.Checked.Plan
import FollowOn.Proofs.Ledger.Stops
import FollowOn.Proofs.Ledger.Candidates
import FollowOn.Proofs.RemainderPasses
import FollowOn.Proofs.PassBudget
import FollowOn.Proofs.Ledger.PassReport
import FollowOn.Proofs.Cap
import FollowOn.Proofs.Relevance
import FollowOn.Proofs.Ledger.WeightedShares
import FollowOn.Proofs.ProRata
import FollowOn.Proofs.RankedPlaces
import FollowOn.Proofs.Comparison
import FollowOn.Proofs.Reference
import FollowOn.Proofs.Audit
import FollowOn.Proofs.Ledger.Admissions
import FollowOn.Proofs.Ledger.ShareAccuracy
