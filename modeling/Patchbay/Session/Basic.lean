import Patchbay.Output.Sink
import Patchbay.Render.Engine
import Patchbay.Session.Handoff

/-! Sessions: rendering for as long as nobody stops it, while plans are exchanged.

Plans are submitted from outside and taken over at block boundaries. Until the
first one arrives there is silence. The latencies of the plan submitted last are
kept up to date beside the renderer.
-/

set_option autoImplicit false

namespace Patchbay

structure ActivePlan (ν : Type) where
  plan : Plan ν
  engine : Engine

namespace ActivePlan

variable {ν : Type}

def ofPlan (plan : Plan ν) : Checked (ActivePlan ν) := do
  return ⟨plan, ← Engine.forLayout plan.layout⟩

def monitor (active : ActivePlan ν) : Monitor := active.plan.monitor

def setMonitor (active : ActivePlan ν) (monitor : Monitor) : ActivePlan ν :=
  { active with plan := { active.plan with monitor } }

def mapNodes (change : ν → ν) (active : ActivePlan ν) : ActivePlan ν :=
  { active with plan := active.plan.mapNodes change }

end ActivePlan

structure Session (ν : Type) where
  settings : Settings
  running : Bool
  /-- The renderer is still there. -/
  attached : Bool
  plans : Handoff (ActivePlan ν)
  /-- The time of the next block. -/
  context : Context
  silence : AudioBuffer
  /-- The last state of the plan submitted last, once the renderer is gone. -/
  lastMonitor : Option Monitor

namespace Session

variable {ν : Type}

def start (settings : Settings) : Checked (Except EngineError (Session ν)) := do
  if let .error problem := settings.validate then return .error (.invalidSettings problem)
  else
    let deadline ← settings.blockDeadline
    return .ok {
      settings
      running := true
      attached := true
      plans := {}
      context := settings.context (.realtime deadline)
      silence := ← AudioBuffer.silence settings.blockSize settings.channels
      lastMonitor := none }

/-! ## The control side -/

def collect (session : Session ν) : Nat × Session ν :=
  let (count, plans) := session.plans.collectAll
  (count, { session with plans })

def submit (session : Session ν) (plan : Plan ν) :
    Checked (Except EngineError Unit × Session ν) := do
  let blockSize := plan.layout.blockSize
  if !session.running then return (.error .sessionClosed, session)
  else if blockSize ≠ session.settings.blockSize then
    return (.error (.invalidSettings (.sessionBlockSize blockSize session.settings.blockSize)),
      session)
  else
    let plans := session.plans.submit (← ActivePlan.ofPlan plan)
    return (.ok (), ({ session with plans } : Session ν).collect.2)

/-- Compiles a patch with the session's settings and submits the plan. A fault on
the way harms nothing else. -/
def recompile [Node ν] (session : Session ν) (patch : Patch ν) :
    Except EngineError Unit × Session ν :=
  match compile patch session.settings.compileOptions with
  | .error _ => (.error .compileFault, session)
  | .ok (.error error) => (.error (.compile error), session)
  | .ok (.ok plan) =>
      match session.submit plan with
      | .error _ => (.error .compileFault, session)
      | .ok answer => answer

def stop (session : Session ν) : Session ν := { session with running := false }.collect.2

def monitor? (session : Session ν) : Option Monitor :=
  (session.plans.newest?.map (·.monitor)) <|> session.lastMonitor

def refresh (session : Session ν) : Checked (Session ν) := do
  match session.plans.newest? with
  | none => return session
  | some active =>
      let (_, monitor) ←
        { active.monitor with latencies.dirty := false : Monitor }.refresh
      return { session with plans := session.plans.modifyNewest (·.setMonitor monitor) }

/-! ## The renderer -/

def render [Node ν] (session : Session ν) : Checked (Option AudioBuffer × Session ν) := do
  if !session.running then return (none, session)
  else
    let plans := session.plans.swap
    match plans.current with
    | none => return (some session.silence, { session with plans })
    | some active =>
        let (engine, plan, context) ← active.engine.process active.plan session.context
        return (some engine.output,
          { session with plans := { plans with current := some ⟨plan, engine⟩ }, context })

/-- Lets go of the renderer and the plans it holds, which ends the session. -/
def detach (session : Session ν) : Session ν :=
  { session with
    running := false
    attached := false
    lastMonitor := session.monitor?
    plans := { session.plans with pending := none, current := none } }

def writeBlocks [Node ν] {σ : Type} [BlockSink σ] (blocks : Nat) :
    (left : Nat) → Session ν → σ → Checked (Except EngineError Nat × Session ν × σ)
  | 0, session, sink => do
      let (outcome, sink) := BlockSink.finish sink
      return ((← outcome).map fun () => blocks, session, sink)
  | left + 1, session, sink => do
      match ← session.render with
      | (none, session) =>
          let (outcome, sink) := BlockSink.finish sink
          return ((← outcome).map fun () => blocks, session, sink)
      | (some block, session) =>
          let (outcome, sink) := BlockSink.write block.samples block.channels sink
          match ← outcome with
          | .error error => return (.error error, session, sink)
          | .ok () =>
              writeBlocks (blocks + 1) left (if left = 0 then session.stop else session) sink

/-- Renders into a sink until the session is stopped behind the block numbered
`stops`, and answers how many blocks were written. The renderer is gone then. -/
def renderLoop [Node ν] {σ : Type} [BlockSink σ] (session : Session ν) (sink : σ) (stops : Nat) :
    Checked (Except EngineError Nat × Session ν × σ) := do
  let (outcome, session, sink) ← session.writeBlocks 0 stops sink
  return (outcome, session.detach, sink)

def mapNodes (change : ν → ν) (session : Session ν) : Session ν :=
  { session with plans := session.plans.map (·.mapNodes change) }

end Session

end Patchbay
