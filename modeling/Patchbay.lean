import Patchbay.Main
import Patchbay.Module
import Patchbay.Proofs.Budget.Admission
import Patchbay.Proofs.Budget.Tracking
import Patchbay.Proofs.Estate.Lifetime
import Patchbay.Proofs.Frame.Cutting
import Patchbay.Proofs.Frame.Sending
import Patchbay.Proofs.Inbox.Counting
import Patchbay.Proofs.Inbox.Disposal
import Patchbay.Proofs.Inbox.Ownership
import Patchbay.Proofs.Inbox.Stack
import Patchbay.Proofs.Module.Account
import Patchbay.Proofs.Module.Cycle
import Patchbay.Proofs.Queue.Balance
import Patchbay.Proofs.Queue.Service
import Patchbay.Proofs.Registry.Neighbours
import Patchbay.Proofs.Registry.Plugging
import Patchbay.Proofs.Registry.Residue
import Patchbay.Proofs.Registry.Traces
import Patchbay.Proofs.Settings.Instances
import Patchbay.Proofs.Slot.Teardown
import Patchbay.Proofs.Worker.Lifecycle
import Patchbay.Proofs.Slot.Recall
import Patchbay.Proofs.Registry.Release
import Patchbay.Proofs.Registry.Return
import Patchbay.Proofs.Registry.Parting
import Patchbay.Proofs.Budget.Lease
import Patchbay.Proofs.Budget.Refusals
import Patchbay.Proofs.Mac.Spelling
import Patchbay.Proofs.Frame.Segmenting
import Patchbay.Proofs.Frame.Forwarding
import Patchbay.Proofs.Settings.Fallback
import Patchbay.Proofs.Inbox.Warnings
import Patchbay.Proofs.Frame.Clipping
import Patchbay.Proofs.Frame.Gathering
import Patchbay.Proofs.Frame.Chaining
import Patchbay.Proofs.Registry.Listing
import Patchbay.Proofs.Simulation.Completion
