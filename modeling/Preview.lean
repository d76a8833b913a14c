import Preview.Config.Wiring
import Preview.Proofs.Aliases
import Preview.Proofs.Composing
import Preview.Proofs.Convergence
import Preview.Proofs.Delivery
import Preview.Proofs.Departure
import Preview.Proofs.Directory
import Preview.Proofs.Following
import Preview.Proofs.Interference
import Preview.Proofs.Lifetimes
import Preview.Proofs.Lingering
import Preview.Proofs.Outcome
import Preview.Proofs.Ownership
import Preview.Proofs.Planning
import Preview.Proofs.Recognition
import Preview.Proofs.Redeploying
import Preview.Proofs.Repeating
import Preview.Proofs.Replacing
import Preview.Proofs.Revival
import Preview.Proofs.Rounds
import Preview.Proofs.Shadowing
import Preview.Proofs.Sweeping
import Preview.Proofs.Teardown
import Preview.Proofs.Terms
import Preview.Proofs.Undoing
import Preview.Proofs.Waiting
import Preview.Sweeper
import Preview.Template.Render
import Preview.Timeline
