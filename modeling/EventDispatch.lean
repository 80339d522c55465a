import EventDispatch.Api.Serve
import EventDispatch.Config.Reload
import EventDispatch.Dispatch.Run
import EventDispatch.Main
import EventDispatch.Proofs.Store.Calls
import EventDispatch.Proofs.Store.Exclusion
import EventDispatch.Proofs.Run.Core
import EventDispatch.Proofs.Run.Turns
import EventDispatch.Proofs.Run.Stages
import EventDispatch.Proofs.Run.Tended
import EventDispatch.Proofs.Run.Overlap
import EventDispatch.Proofs.Run.Sparing
import EventDispatch.Proofs.Run.Settling
import EventDispatch.Proofs.Run.Starting
import EventDispatch.Proofs.Store.Lifecycle
import EventDispatch.Proofs.Run.Regaining
import EventDispatch.Proofs.Run.Retries
import EventDispatch.Proofs.Run.Budget
import EventDispatch.Proofs.Run.Exhaustion
import EventDispatch.Proofs.Run.Ending
import EventDispatch.Proofs.Run.Spending
import EventDispatch.Proofs.Run.Draining
import EventDispatch.Proofs.Run.Gating
import EventDispatch.Proofs.Run.Leading
import EventDispatch.Proofs.Run.Sharing
import EventDispatch.Proofs.Store.Backoff
import EventDispatch.Proofs.Config.Accepted
import EventDispatch.Proofs.Run.Windows
import EventDispatch.Proofs.Run.Stranding
import EventDispatch.Proofs.Run.Fates
import EventDispatch.Proofs.Run.Commuting
import EventDispatch.Proofs.Run.Wear
import EventDispatch.Proofs.Run.Capacity
import EventDispatch.Proofs.Run.Waking
import EventDispatch.Proofs.Run.Auditing
import EventDispatch.Proofs.Api.Framing
import EventDispatch.Proofs.Run.Delivery
import EventDispatch.Proofs.Store.Ranking
import EventDispatch.Proofs.Store.Separation
import EventDispatch.Proofs.Config.Reloading
import EventDispatch.Proofs.Run.Permits
import EventDispatch.Proofs.Store.Atomicity
import EventDispatch.Proofs.Time.Exactness
import EventDispatch.Proofs.Run.Outcomes
import EventDispatch.Proofs.Run.Unwritten
import EventDispatch.Proofs.Dispatch.Families
import EventDispatch.Proofs.Api.Registration
import EventDispatch.Proofs.Api.Listing
import EventDispatch.Proofs.Dispatch.Registering
import EventDispatch.Proofs.Dispatch.Watching
import EventDispatch.Proofs.Run.Stopping
import EventDispatch.Proofs.Run.Mirroring
import EventDispatch.Proofs.Run.Outliving
