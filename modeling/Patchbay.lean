import Patchbay.Mixer.Flatten
import Patchbay.Output.Offline
import Patchbay.Output.Wave
import Patchbay.Patch.Summary
import Patchbay.Proofs.Plan.Acceptance
import Patchbay.Proofs.Render.Arrival
import Patchbay.Proofs.Render.Refinement
import Patchbay.Proofs.Render.Delivery
import Patchbay.Session.Basic
import Patchbay.Settings.Document
import Patchbay.Proofs.Render.Departures
import Patchbay.Proofs.Render.EventArrival
import Patchbay.Proofs.Plan.Misaligned
import Patchbay.Proofs.Render.Clamps
import Patchbay.Proofs.Render.Compensation
import Patchbay.Proofs.Render.EventAlignment
import Patchbay.Proofs.Node.Sight
import Patchbay.Proofs.Render.Answers
import Patchbay.Proofs.Render.Containment
import Patchbay.Proofs.Render.Exchange
import Patchbay.Proofs.Render.Reservation
import Patchbay.Proofs.Render.BlockSize
import Patchbay.Proofs.Render.Audible
import Patchbay.Proofs.Session.Newest
import Patchbay.Proofs.Session.Shape
import Patchbay.Proofs.Mixer.Order
import Patchbay.Proofs.Mixer.Playback
import Patchbay.Proofs.Mixer.Evaluation
import Patchbay.Proofs.Mixer.Compilation
import Patchbay.Proofs.Output.Offline
import Patchbay.Proofs.Render.Sharing
import Patchbay.Proofs.Render.Reset
import Patchbay.Proofs.Patch.History
import Patchbay.Proofs.Render.Warnings
import Patchbay.Proofs.Patch.Canonical
import Patchbay.Proofs.Patch.Splicing
import Patchbay.Proofs.Mixer.Refusal
import Patchbay.Proofs.Delay.Playback
import Patchbay.Proofs.Delay.Turns
import Patchbay.Proofs.Render.Merging
import Patchbay.Proofs.Signal.InPlace
import Patchbay.Proofs.Latency.Numbering
