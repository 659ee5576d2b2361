import ChangeReview.Main
import ChangeReview.Review.Session
import ChangeReview.Proofs.Change.Recovery
import ChangeReview.Proofs.Change.FilePath
import ChangeReview.Proofs.Report
import ChangeReview.Proofs.Review.Frozen
import ChangeReview.Proofs.Review.Staging
import ChangeReview.Proofs.Review.Overlap
import ChangeReview.Proofs.Review.Output
import ChangeReview.Proofs.Verdict
import ChangeReview.Proofs.Review.Rearrangement
import ChangeReview.Proofs.Review.Retry
import ChangeReview.Proofs.Change.Restatement
import ChangeReview.Proofs.Review.Relocation
import ChangeReview.Proofs.Configuration
import ChangeReview.Proofs.DiffSources
import ChangeReview.Proofs.Review.Placement
import ChangeReview.Proofs.Review.Checkout
import ChangeReview.Proofs.Review.Narrowing
import ChangeReview.Proofs.Change.Existence
import ChangeReview.Proofs.Change.Limits
import ChangeReview.Proofs.Spelling
import ChangeReview.Proofs.Patterns
