import Loac.Interleave.Logic
import Loac.Interleave.Slots
import Loac.Interleave.Scripts
import Loac.Lifecycle
import Loac.Mailbox.Control
import Loac.Scheduling.State
import Loac.Mailbox.Transport
import Loac.Supervision
import Loac.World
import Loac.Program
import Loac.Reply
import Loac.Scheduling.Queue
import Loac.Mailbox
import Loac.Scheduling.Runtime
import Loac.Runtime.Task
import Loac.Runtime.Shutdown
import Loac.Runtime.ActorLoop
import Loac.Runtime.Lifetime
import Loac.Containment.Layers
import Loac.Supervision.Registrations
import Loac.Frames
import Loac.Hierarchy.Confirmation
import Loac.Delivery.Cutoff
import Loac.Delivery.Outcomes
import Loac.Containment.Repertoire
import Loac.Course.Waiting
import Loac.Course.Parked
import Loac.Course.Children
import Loac.Admission.Closure
import Loac.Interleave.Watch
import Loac.Scheduling.Effects
import Loac.Containment.Works
import Loac.Completion.Finished
import Loac.Capacity.Dispatch
import Loac.Retirement.Frames
import Loac.Discarding.Ends
import Loac.Bypass.Bound
import Loac.Streaming.Replies
import Loac.Delivery.Finals
import Loac.Exclusion.Builds
import Loac.Backlog.Bound
import Loac.Rotation.Rounds
import Loac.Idling.Waits
import Loac.LateWakes.Counterparts
import Loac.Directed.Wakes
import Loac.EndOfLife.Answers
import Loac.Hierarchy.Causes
import Loac.Capacity.Backpressure
import Loac.Macros.Attributes
