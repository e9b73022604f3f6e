import Patchbay.Output.Sink
import Patchbay.Render.Engine

/-! Rendering a plan as fast as it goes.

A render writes exactly the frames that cover a duration; the last block is cut
to fit. Latencies are refreshed between blocks. A cancelled render stops before
its next block, and its sink is finished all the same.
-/

set_option autoImplicit false

namespace Patchbay

structure OfflineReport where
  frames : Nat
  blocks : Nat
  /-- The render stopped early. -/
  cancelled : Bool
  failedNodes : List NodeId
  deriving DecidableEq

structure OfflineRun (ν σ : Type) where
  engine : Engine
  plan : Plan ν
  context : Context
  sink : σ
  frames : Nat := 0
  blocks : Nat := 0
  cancelled : Bool := false

namespace OfflineRun

variable {ν σ : Type} [Node ν] [BlockSink σ]

def step (total : Nat) (run : OfflineRun ν σ) :
    Checked (Except EngineError Unit × OfflineRun ν σ) := do
  let (engine, plan, context) ← run.engine.process run.plan run.context
  let frames := min plan.layout.blockSize (total - run.frames)
  let channels := plan.layout.sinkChannels
  let (outcome, sink) :=
    BlockSink.write (engine.output.samples.extract 0 (frames * channels)) channels run.sink
  match ← outcome with
  | .error error => return (.error error, { run with engine, plan, context, sink })
  | .ok () =>
      let (_, monitor) ← plan.monitor.refreshIfDirty
      return (.ok (), {
        run with
        engine
        plan := { plan with monitor }
        context
        sink
        frames := run.frames + frames
        blocks := run.blocks + 1 })

/-- Renders `rounds` blocks, unless it is cancelled or the sink refuses one.
`cancelled` tells whether the render is cancelled once that many blocks are
done. -/
def loop (total : Nat) (cancelled : Nat → Bool) :
    (rounds : Nat) → OfflineRun ν σ → Checked (Except EngineError Unit × OfflineRun ν σ)
  | 0, run => .ok (.ok (), run)
  | rounds + 1, run =>
      if cancelled run.blocks then .ok (.ok (), { run with cancelled := true })
      else do
        match ← run.step total with
        | (.ok (), run) => loop total cancelled rounds run
        | (.error error, run) => return (.error error, run)

end OfflineRun

/-- Renders a duration, in nanoseconds, of a plan into a sink. The plan must have
the block size of the settings. -/
def renderOffline {ν σ : Type} [Node ν] [BlockSink σ] (plan : Plan ν) (settings : Settings)
    (nanos : Nat) (sink : σ) (cancelled : Nat → Bool) :
    Checked (Except EngineError OfflineReport × Plan ν × σ) := do
  let blockSize := plan.layout.blockSize
  if let .error problem := settings.validate then
    return (.error (.invalidSettings problem), plan, sink)
  else if settings.blockSize ≠ blockSize then
    return (.error (.invalidSettings (.planBlockSize settings.blockSize blockSize)), plan, sink)
  else
    let total := settings.framesFor nanos
    let start : OfflineRun ν σ :=
      { engine := ← Engine.forLayout plan.layout, plan, context := settings.context .offline, sink }
    match ← start.loop total cancelled ((total + blockSize - 1) / blockSize) with
    | (.error error, run) => return (.error error, run.plan, run.sink)
    | (.ok (), run) =>
        let (outcome, sink) := BlockSink.finish run.sink
        return ((← outcome).map fun () => {
          frames := run.frames
          blocks := run.blocks
          cancelled := run.cancelled
          failedNodes := run.plan.monitor.failedNodes }, run.plan, sink)

end Patchbay
