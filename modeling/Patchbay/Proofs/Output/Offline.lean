import Mathlib.Algebra.Order.Floor.Div
import Mathlib.Data.ENat.Lattice
import Patchbay.Output.Offline
import Patchbay.Proofs.Render.Arrival
import Patchbay.Proofs.Render.Lockstep
import Patchbay.Proofs.Render.Monitoring

/-! An offline render is where the stream of its plan starts.

The stream is what rounds of one block and one refresh give, whether or not a
latency was reported. A render refreshes only where there is news, cuts its last block
and may be cancelled, and still writes the frames of the stream in order, none left
out, and as many as it reports.
-/

set_option autoImplicit false

namespace Patchbay

/-! ## Rounds and frames -/

theorem Settings.framesFor_eq (settings : Settings) {nanos : Nat}
    (counted : nanos * settings.sampleRate ⌈/⌉ Settings.nanosPerSecond < Count.limit) :
    settings.framesFor nanos = nanos * settings.sampleRate ⌈/⌉ Settings.nanosPerSecond := by
  have positive : 1 ≤ Settings.nanosPerSecond := by decide
  unfold Settings.framesFor
  rw [Nat.ceilDiv_eq_add_pred_div, Nat.add_sub_assoc positive] at counted ⊢
  exact Nat.mod_eq_of_lt counted

/-- How many of the rounds are rendered if so many blocks are done. -/
def due (cancelled : Nat → Bool) : (rounds done : Nat) → Nat
  | 0, _ => 0
  | rounds + 1, done => if cancelled done then 0 else due cancelled rounds (done + 1) + 1

theorem natCast_min (first second : Nat) : ((min first second : Nat) : ℕ∞) = min (first : ℕ∞) second :=
  Nat.mono_cast.map_min

theorem due_eq {cancelled : Nat → Bool} {limit : ℕ∞} (stops : ∀ done : Nat, cancelled done = true ↔ limit ≤ done)
    (rounds done : Nat) : (due cancelled rounds done : ℕ∞) = min (rounds : ℕ∞) (limit - done) := by
  induction rounds generalizing done with
  | zero => simp [due]
  | succ rounds ih =>
    unfold due
    split
    · rename_i stopped
      rw [tsub_eq_zero_of_le ((stops done).mp stopped)]
      simp
    · rename_i goesOn
      rw [stops] at goesOn
      rw [Nat.cast_add, ih]
      -- Subtraction is cut off in both kinds of numbers, but only finite ones can be left to arithmetic.
      cases limit with
      | top => simp only [ENat.top_sub_natCast, min_top_right, Nat.cast_add rounds]
      | coe limit =>
        rw [Nat.cast_le] at goesOn
        simp only [← ENat.natCast_sub, ← natCast_min, ← Nat.cast_add, Nat.cast_inj]
        omega

theorem due_le (cancelled : Nat → Bool) (rounds done : Nat) : due cancelled rounds done ≤ rounds := by
  induction rounds generalizing done with
  | zero => exact le_rfl
  | succ rounds ih =>
    unfold due
    split
    · exact Nat.zero_le _
    · exact Nat.succ_le_succ (ih (done + 1))

theorem ceilDiv_le_iff {frames blockSize : Nat} (positive : 0 < blockSize) (count : Nat) :
    frames ⌈/⌉ blockSize ≤ count ↔ frames ≤ count * blockSize := by
  rw [ceilDiv_le_iff_le_mul positive, mul_comm]

theorem ceilDiv_frames {total blockSize count : Nat} (positive : 0 < blockSize) (few : count ≤ total ⌈/⌉ blockSize) :
    min total (count * blockSize) ⌈/⌉ blockSize = count := by
  refine le_antisymm ((ceilDiv_le_iff positive count).mpr (min_le_right _ _)) (le_of_not_gt fun less => ?_)
  have reached := (ceilDiv_le_iff positive (count - 1)).mp (Nat.le_sub_one_of_lt less)
  rcases min_le_iff.mp reached with enough | short
  · have := (ceilDiv_le_iff positive (count - 1)).mpr enough
    omega
  · have := Nat.le_of_mul_le_mul_right short positive
    omega

theorem due_frames {total blockSize count : Nat} {limit : ℕ∞} (positive : 0 < blockSize)
    (counted : (count : ℕ∞) = min ((total ⌈/⌉ blockSize : Nat) : ℕ∞) limit) :
    (min total (count * blockSize) : Nat) = min (total : ℕ∞) (limit * blockSize) ∧
      (count < total ⌈/⌉ blockSize ↔ limit * blockSize < total) := by
  have whole := (ceilDiv_le_iff positive _).mp (le_refl (total ⌈/⌉ blockSize))
  cases limit with
  | top =>
    rw [min_top_right, Nat.cast_inj] at counted
    rw [counted, min_eq_left whole, ENat.top_mul (Nat.cast_ne_zero.mpr positive.ne'), min_top_right]
    exact ⟨rfl, iff_of_false (lt_irrefl _) not_top_lt⟩
  | coe limit =>
    rw [← natCast_min, Nat.cast_inj] at counted
    rw [← Nat.cast_mul, ← natCast_min, Nat.cast_inj, Nat.cast_lt]
    rcases le_or_gt (total ⌈/⌉ blockSize) limit with enough | early
    · have reached := (ceilDiv_le_iff positive limit).mp enough
      rw [counted, min_eq_left enough, min_eq_left whole, min_eq_left reached]
      exact ⟨rfl, iff_of_false (lt_irrefl _) reached.not_gt⟩
    · rw [counted, min_eq_right early.le]
      exact ⟨rfl, iff_of_true early (not_le.mp fun reached => early.not_ge ((ceilDiv_le_iff positive limit).mpr reached))⟩

variable {ν σ : Type}

/-! ## Refreshes -/

theorem Latencies.refresh_again {latencies after : Latencies} {graph : LatencyGraph} {report : RefreshReport}
    (answer : latencies.refresh graph = .ok (report, after)) :
    ∃ again, after.refresh graph = .ok (again, after) ∧ again.misaligned = report.misaligned := by
  simp only [refresh, bind_eq_ok, pure_eq_ok, Prod.mk.injEq] at answer
  obtain ⟨alignment, aligns, rfl, rfl⟩ := answer
  simp only [refresh, aligns, ok_bind]
  exact ⟨_, rfl, rfl⟩

namespace Monitor

/-- As long as no news is marked, a refresh would publish nothing new. -/
def UpToDate (monitor : Monitor) : Prop :=
  monitor.latencies.dirty = false → ∃ report,
    monitor.latencies.refresh monitor.graph = .ok (report, monitor.latencies) ∧ report.misaligned = monitor.misaligned

variable {monitor after : Monitor}

theorem unmark_ahead (tally : Tally) (dirty : monitor.latencies.dirty = true) :
    ({ monitor with latencies := { monitor.latencies with dirty := false } } : Monitor).ahead { tally with marked := true } =
      monitor.ahead tally := by
  simp only [ahead, Latencies.mark, dirty, Bool.or_true, Bool.true_or]

namespace UpToDate

/-- A refresh on demand does what a refresh does, except that it takes note of it. -/
theorem refresh_inStep (upToDate : monitor.UpToDate) (tally : Tally) :
    InStep (fun noted refreshed => ∃ marked, refreshed.2 = noted.2.ahead { tally with marked })
      monitor.refreshIfDirty (monitor.ahead tally).refresh := by
  unfold refreshIfDirty
  split
  · rename_i dirty
    -- Both align the same reports. The mark is taken away in one and stays in the other.
    rw [← unmark_ahead tally dirty, ahead_refresh, ← bind_pure (_ <$> _)]
    refine (InStep.map _ _).bind ?_
    rintro ⟨report, noted⟩ _ - - rfl
    exact .answer ⟨true, rfl⟩
  · rename_i clean
    -- There is no report since the last refresh, so another one publishes what it finds.
    obtain ⟨report, answer, misaligned⟩ := upToDate (Bool.eq_false_iff.mpr clean)
    have same : monitor.refresh = .ok (report, monitor) := by
      simp only [refresh, answer, ok_bind, misaligned]
      rfl
    rw [ahead_refresh, same]
    exact .answer ⟨tally.marked, rfl⟩

theorem refreshIfDirty {report : Option RefreshReport} (upToDate : monitor.UpToDate)
    (answer : monitor.refreshIfDirty = .ok (report, after)) : after.UpToDate := by
  simp only [Monitor.refreshIfDirty] at answer
  split at answer
  · simp only [refresh, bind_eq_ok, pure_eq_ok, Prod.exists, Prod.mk.injEq] at answer
    obtain ⟨_, _, ⟨report, latencies, published, rfl, rfl⟩, _, rfl⟩ := answer
    exact fun _ => Latencies.refresh_again published
  · cases answer
    exact upToDate

theorem report {position samples : Nat} {changed : Bool} {latencies : Latencies} (upToDate : monitor.UpToDate)
    (answer : monitor.latencies.report position samples = .ok (changed, latencies)) :
    ({ monitor with latencies } : Monitor).UpToDate := by
  simp only [Latencies.report, bind_eq_ok] at answer
  obtain ⟨old, _, answer⟩ := answer
  split at answer
  · cases answer
    exact upToDate
  · -- What is new is marked.
    simp only [bind_eq_ok, pure_eq_ok, Prod.mk.injEq] at answer
    obtain ⟨_, _, _, rfl⟩ := answer
    exact nofun

theorem stable : Stable (fun _ _ => True) UpToDate where
  countOverflow _ here := here
  markFailed _ here := here
  countBlock here := here
  report answer _ here := here.report answer

end UpToDate

end Monitor

variable [Node ν] {patch : Patch ν} {options : CompileOptions}
  {placed : List (Placed ν)} {survey : Survey} {plan after last : Plan ν}

theorem CompiledFrom.upToDate (compiled : CompiledFrom patch options placed survey plan) : plan.monitor.UpToDate := by
  intro _
  obtain ⟨_, _, _, _, _, assembled⟩ := compiled.assembled
  obtain ⟨alignment, aligns, compensation, links⟩ := assembled.published
  rw [← compiled.serves.graph, ← assembled.intrinsic] at aligns
  simp only [Latencies.refresh, aligns, ok_bind, ← compensation, ← links]
  exact ⟨_, rfl, assembled.misaligned.symm⟩

/-! ## The stream of a plan -/

namespace Engine

def cycle (engine : Engine) (plan : Plan ν) (context : Context) : Checked (Engine × Plan ν × Context) := do
  let (engine, plan, context) ← engine.process plan context
  let (_, monitor) ← plan.monitor.refresh
  return (engine, { plan with monitor }, context)

/-- Renders one block after another. Answers the blocks, and the plan after the last one. -/
def stream (engine : Engine) (plan : Plan ν) (context : Context) : (count : Nat) → Checked (List AudioBuffer × Plan ν)
  | 0 => .ok ([], plan)
  | count + 1 => do
      let (engine, plan, context) ← engine.cycle plan context
      let (blocks, last) ← engine.stream plan context count
      return (engine.output :: blocks, last)

variable {engine other next : Engine} {context moved : Context}

theorem Whole.cycle (whole : engine.Whole) (channels : 0 < plan.layout.sinkChannels)
    (answer : engine.cycle plan context = .ok (next, after, moved)) :
    after.layout = plan.layout ∧ next.Whole ∧
      next.output.samples.size = plan.layout.blockSize * plan.layout.sinkChannels := by
  simp only [Engine.cycle, process, bind_eq_ok, pure_eq_ok, Prod.exists, Prod.mk.injEq] at answer
  obtain ⟨_, rendered, _, ⟨calls, _, _, _, renders, rfl, rfl, rfl⟩, _, monitor, _, rfl, rfl, rfl⟩ := answer
  have shape := whole.render channels renders
  obtain ⟨_, _, _, _, _, _, _, _, _, _, _, rfl, _⟩ := render_parts renders
  exact ⟨rfl, shape⟩

theorem Whole.stream (whole : engine.Whole) (channels : 0 < plan.layout.sinkChannels)
    {count : Nat} {blocks : List AudioBuffer} (answer : engine.stream plan context count = .ok (blocks, last)) :
    blocks.length = count ∧
      ∀ block ∈ blocks, block.samples.size = plan.layout.blockSize * plan.layout.sinkChannels := by
  induction count generalizing engine plan context blocks with
  | zero =>
    cases answer
    exact ⟨rfl, fun _ member => absurd member List.not_mem_nil⟩
  | succ count ih =>
    simp only [Engine.stream, bind_eq_ok, pure_eq_ok, Prod.exists, Prod.mk.injEq] at answer
    obtain ⟨next, after, moved, first, later, _, rest, rfl, rfl⟩ := answer
    obtain ⟨layout, whole, size⟩ := whole.cycle channels first
    obtain ⟨length, sizes⟩ := ih whole (layout ▸ channels) rest
    rw [layout] at sizes
    exact ⟨by rw [List.length_cons, length], List.forall_mem_cons.mpr ⟨size, sizes⟩⟩

end Engine

/-! ## What is written of it -/

def pieces (blockSize channels : Nat) : (missing : Nat) → List AudioBuffer → List (Array Sample)
  | _, [] => []
  | missing, block :: rest =>
      block.samples.extract 0 (min blockSize missing * channels) ::
        pieces blockSize channels (missing - blockSize) rest

/-- One behind another, the pieces are where the blocks start. -/
theorem pieces_flatten {blockSize channels : Nat} {blocks : List AudioBuffer}
    (whole : ∀ block ∈ blocks, block.samples.size = blockSize * channels) (missing : Nat) :
    (pieces blockSize channels missing blocks).flatMap Array.toList =
      (blocks.flatMap (·.samples.toList)).take (missing * channels) := by
  induction blocks generalizing missing with
  | nil => simp [pieces]
  | cons block rest ih =>
    obtain ⟨here, later⟩ := List.forall_mem_cons.mp whole
    have length : block.samples.toList.length = blockSize * channels := by rw [Array.length_toList, here]
    simp only [pieces, List.flatMap_cons, ih later, List.take_append, length, Nat.sub_mul]
    congr 1
    rw [Array.toList_extract, List.extract_eq_take_drop, List.drop_zero, Nat.sub_zero, List.take_eq_take_iff, length,
      Nat.mul_min_mul_right, Nat.mul_min_mul_right, min_right_comm, min_self, min_comm]

theorem length_samples {size : Nat} {blocks : List AudioBuffer} (whole : ∀ block ∈ blocks, block.samples.size = size) :
    (blocks.flatMap (·.samples.toList)).length = blocks.length * size := by
  rw [List.length_flatMap, List.map_congr_left fun block member => Array.length_toList.trans (whole block member),
    List.map_const', List.sum_replicate, smul_eq_mul]

theorem pieces_min (blockSize channels missing : Nat) (blocks : List AudioBuffer) :
    pieces blockSize channels (min missing (blocks.length * blockSize)) blocks =
      pieces blockSize channels missing blocks := by
  induction blocks generalizing missing with
  | nil => rfl
  | cons block rest ih =>
    rw [pieces, pieces, ← ih (missing - blockSize), List.length_cons, Nat.succ_mul]
    congr 3 <;> omega

section

variable [BlockSink σ]

def BlockSink.writeAll (channels : Nat) (pieces : List (Array Sample)) (sink : σ) : σ :=
  pieces.foldl (fun sink piece => (BlockSink.write piece channels sink).2) sink

/-- A sink of this kind takes any block of so many channels, and is of this kind still. -/
def BlockSink.Takes (channels : Nat) (accepts : σ → Prop) : Prop :=
  ∀ piece sink, accepts sink → (BlockSink.write piece channels sink).1 = .ok (.ok ()) ∧
    accepts (BlockSink.write piece channels sink).2

/-- Writes as many frames as are asked for of a plan's stream, and finishes the sink once. -/
def writePrefix (plan : Plan ν) (context : Context) (frames : Nat) (early : Bool) (sink : σ) :
    Checked (Except EngineError OfflineReport × σ) := do
  let blockSize := plan.layout.blockSize
  let channels := plan.layout.sinkChannels
  let engine ← Engine.forLayout plan.layout
  let (blocks, last) ← engine.stream plan context (frames ⌈/⌉ blockSize)
  let (outcome, sink) := BlockSink.finish (BlockSink.writeAll channels (pieces blockSize channels frames blocks) sink)
  return ((← outcome).map fun () => {
    frames
    blocks := frames ⌈/⌉ blockSize
    cancelled := early
    failedNodes := last.monitor.failedNodes }, sink)

/-! ## Round by round -/

namespace OfflineRun

structure Sound (accepts : σ → Prop) (run : OfflineRun ν σ) : Prop where
  upToDate : run.plan.monitor.UpToDate
  sink : accepts run.sink

/-- What a round makes of a render, apart from the state of plan and renderer. -/
structure Advances (total : Nat) (run : OfflineRun ν σ) (block : AudioBuffer) (after : OfflineRun ν σ) : Prop where
  layout : after.plan.layout = run.plan.layout
  sink : after.sink = (BlockSink.write (block.samples.extract 0 (min run.plan.layout.blockSize (total - run.frames) *
    run.plan.layout.sinkChannels)) run.plan.layout.sinkChannels run.sink).2
  frames : after.frames = run.frames + min run.plan.layout.blockSize (total - run.frames)
  blocks : after.blocks = run.blocks + 1
  cancelled : after.cancelled = run.cancelled

structure Renders (total rounds : Nat) (run : OfflineRun ν σ) (played : List AudioBuffer) (final : OfflineRun ν σ) :
    Prop where
  sink : final.sink = BlockSink.writeAll run.plan.layout.sinkChannels
    (pieces run.plan.layout.blockSize run.plan.layout.sinkChannels (total - run.frames) played) run.sink
  frames : final.frames = run.frames + min (total - run.frames) (played.length * run.plan.layout.blockSize)
  blocks : final.blocks = run.blocks + played.length
  cancelled : final.cancelled = (run.cancelled || decide (played.length < rounds))

omit [Node ν] in
theorem Advances.renders {total rounds : Nat} {run after final : OfflineRun ν σ} {block : AudioBuffer}
    {played : List AudioBuffer} (advances : run.Advances total block after)
    (renders : after.Renders total rounds played final) : run.Renders total (rounds + 1) (block :: played) final := by
  have rest : total - after.frames = total - run.frames - run.plan.layout.blockSize := by
    rw [advances.frames]
    omega
  refine ⟨?_, ?_, ?_, ?_⟩
  · rw [renders.sink, advances.layout, rest, advances.sink]
    rfl
  · rw [renders.frames, advances.layout, rest, advances.frames, List.length_cons, Nat.succ_mul]
    omega
  · rw [renders.blocks, advances.blocks, List.length_cons]
    omega
  · rw [renders.cancelled, advances.cancelled, List.length_cons]
    simp only [Nat.add_lt_add_iff_right]

variable {accepts : σ → Prop} {run : OfflineRun ν σ}

/-- A round of a render plays a round of the stream. -/
theorem Sound.step_inStep (takes : BlockSink.Takes run.plan.layout.sinkChannels accepts) (sound : run.Sound accepts)
    (tally : Tally) (total : Nat) :
    InStep (fun answer played => answer.1 = .ok () ∧ run.Advances total played.1.output answer.2 ∧
        answer.2.Sound accepts ∧ played.1 = answer.2.engine ∧
        ∃ tally, played.2 = (answer.2.plan.ahead tally, answer.2.context))
      (run.step total) (run.engine.cycle (run.plan.ahead tally) run.context) := by
  unfold step Engine.cycle Engine.process
  rw [Engine.render_ahead]
  simp only [bind_assoc]
  -- Only the counters of the plans differ, and no node sees those.
  refine (InStep.map _ _).bind ?_
  rintro ⟨calls, next, after, moved⟩ _ renders - rfl
  have upToDate : after.monitor.UpToDate := Engine.render_keeps Monitor.UpToDate.stable (fun _ here => here) renders
    sound.upToDate
  have layout : after.layout = run.plan.layout := by
    obtain ⟨_, _, _, _, _, _, _, _, _, _, _, rfl, _⟩ := Engine.render_parts renders
    rfl
  rw [← layout] at takes
  obtain ⟨wrote, accepted⟩ := takes (next.output.samples.extract 0 (min after.layout.blockSize (total - run.frames) *
    after.layout.sinkChannels)) run.sink sound.sink
  simp only [pure_bind, wrote, ok_bind]
  refine (upToDate.refresh_inStep tally).bind ?_
  rintro ⟨report, noted⟩ ⟨_, _⟩ refreshes - ⟨marked, rfl⟩
  refine .answer ⟨rfl, ⟨layout, ?_, ?_, rfl, rfl⟩, ⟨upToDate.refreshIfDirty refreshes, accepted⟩, rfl, _, rfl⟩
  · rw [← layout]
  · rw [← layout]

theorem Sound.loop_inStep (takes : BlockSink.Takes run.plan.layout.sinkChannels accepts) (sound : run.Sound accepts)
    (tally : Tally) (total : Nat) (cancelled : Nat → Bool) (rounds : Nat) :
    InStep (fun answer played => answer.1 = .ok () ∧ run.Renders total rounds played.1 answer.2 ∧
        ∃ tally, played.2 = answer.2.plan.ahead tally)
      (run.loop total cancelled rounds)
      (run.engine.stream (run.plan.ahead tally) run.context (due cancelled rounds run.blocks)) := by
  -- The mark of a report may stay behind in the stream, so the induction is on any tally.
  induction rounds generalizing run tally with
  | zero => exact .answer ⟨rfl, ⟨rfl, by simp, rfl, by simp⟩, tally, rfl⟩
  | succ rounds ih =>
    unfold loop due
    split
    · exact .answer ⟨rfl, ⟨rfl, by simp, rfl, by simp⟩, tally, rfl⟩
    · unfold Engine.stream
      refine (sound.step_inStep takes tally total).bind ?_
      rintro ⟨_, after⟩ ⟨_, _, _⟩ - - ⟨rfl, advances, sound, rfl, tally, rest⟩
      cases rest
      dsimp only at advances sound takes ⊢
      rw [← advances.blocks]
      rw [← advances.layout] at takes
      rw [← bind_pure (loop _ _ _ _)]
      refine (ih takes sound tally).bind ?_
      rintro ⟨_, final⟩ ⟨played, _⟩ - - ⟨rfl, renders, tally, rfl⟩
      exact .answer ⟨rfl, advances.renders renders, tally, rfl⟩

end OfflineRun

/-! ## The whole render -/

section

variable {settings : Settings} {accepts : σ → Prop} {sink : σ}

/-- A render writes as many rounds of the stream as are due. -/
theorem renderOffline_writes (channels : 0 < plan.layout.sinkChannels) (upToDate : plan.monitor.UpToDate)
    (valid : settings.validate = .ok ())
    (fits : plan.layout.blockSize = settings.blockSize) (positive : 0 < settings.blockSize)
    (takes : BlockSink.Takes plan.layout.sinkChannels accepts) (accepted : accepts sink) (nanos : Nat)
    (cancelled : Nat → Bool) {total rounds count : Nat} (asked : settings.framesFor nanos = total)
    (split : rounds = total ⌈/⌉ settings.blockSize) (duly : count = due cancelled rounds 0) :
    (fun (report, _, sink) => (report, sink)) <$> renderOffline plan settings nanos sink cancelled =
      writePrefix plan (settings.context .offline) (min total (count * settings.blockSize)) (decide (count < rounds))
        sink := by
  have few : count ≤ total ⌈/⌉ settings.blockSize := split ▸ duly ▸ due_le cancelled rounds 0
  apply InStep.eq
  simp only [renderOffline, writePrefix, valid, fits, asked, ceilDiv_frames positive few, ne_eq, not_true_eq_false,
    if_false, ← Nat.ceilDiv_eq_add_pred_div, ← split, map_bind]
  -- From the same new renderer on, a fault of the stream is a fault of the render and the other way.
  refine (InStep.refl (Engine.forLayout plan.layout)).bind ?_
  rintro engine _ made - rfl
  have start : OfflineRun.Sound accepts ⟨engine, plan, settings.context .offline, sink, 0, 0, false⟩ :=
    ⟨upToDate, accepted⟩
  have steps := start.loop_inStep takes {} total cancelled rounds
  rw [Plan.ahead_zero, ← duly] at steps
  refine steps.bind ?_
  rintro ⟨_, final⟩ ⟨played, last⟩ - streamed ⟨rfl, renders, tally, rfl⟩
  obtain ⟨length, -⟩ := (Engine.sound_forLayout channels made).whole.stream channels streamed
  obtain ⟨written, framed, blocks, stopped⟩ := renders
  simp only [length, fits, Nat.sub_zero, Nat.zero_add, Bool.false_or] at written framed blocks stopped
  rw [← pieces_min, length] at written
  dsimp only
  rw [written, framed, blocks, stopped, map_bind]
  exact .refl _

end

/-- A render of a plan just compiled into a sink that takes any block writes where the
stream of the plan starts: as many frames as the duration covers, or all up to the
round before which the render is cancelled. -/
theorem offline_prefix {accepts : σ → Prop} (compiled : compile patch options = .ok (.ok plan))
    {settings : Settings} (valid : settings.validate = .ok ()) (fits : settings.blockSize = options.blockSize)
    {nanos total : Nat} (covers : total = nanos * settings.sampleRate ⌈/⌉ Settings.nanosPerSecond)
    (counted : total < Count.limit) {sink : σ} (accepted : accepts sink)
    (takes : BlockSink.Takes plan.layout.sinkChannels accepts) {limit : ℕ∞} {cancelled : Nat → Bool}
    (stops : ∀ done : Nat, cancelled done = true ↔ limit ≤ done) :
    ∃ (frames : Nat) (early : Bool), (frames : ℕ∞) = min (total : ℕ∞) (limit * settings.blockSize) ∧
      (early = true ↔ limit * settings.blockSize < total) ∧
      (fun (report, _, sink) => (report, sink)) <$> renderOffline plan settings nanos sink cancelled =
        writePrefix plan (settings.context .offline) frames early sink ∧
      ∀ engine blocks last, Engine.forLayout plan.layout = .ok engine →
        engine.stream plan (settings.context .offline) (frames ⌈/⌉ settings.blockSize) = .ok (blocks, last) →
        (pieces settings.blockSize plan.layout.sinkChannels frames blocks).flatMap Array.toList =
          (blocks.flatMap (·.samples.toList)).take (frames * plan.layout.sinkChannels) ∧
        frames * plan.layout.sinkChannels ≤ (blocks.flatMap (·.samples.toList)).length := by
  obtain ⟨placed, survey, origin⟩ := compile_plan compiled
  have sound := origin.serves.ready.sound
  have blockSize : plan.layout.blockSize = settings.blockSize := sound.blockSize.trans fits.symm
  have positive : 0 < settings.blockSize := fits ▸ origin.checks.blockSize
  have asked : settings.framesFor nanos = total := (settings.framesFor_eq (covers ▸ counted)).trans covers.symm
  have duly := due_eq stops (total ⌈/⌉ settings.blockSize) 0
  rw [Nat.cast_zero, tsub_zero] at duly
  obtain ⟨frames, early⟩ := due_frames positive duly
  refine ⟨_, _, frames, ?_, renderOffline_writes sound.channels_pos origin.upToDate valid blockSize positive takes
    accepted nanos cancelled asked rfl rfl, ?_⟩
  · rw [decide_eq_true_iff, early]
  · intro engine blocks last made streamed
    obtain ⟨length, whole⟩ :=
      (Engine.sound_forLayout sound.channels_pos made).whole.stream sound.channels_pos streamed
    rw [blockSize] at whole
    refine ⟨pieces_flatten whole _, ?_⟩
    rw [length_samples whole, length, ← Nat.mul_assoc]
    exact Nat.mul_le_mul_right _ ((ceilDiv_le_iff positive _).mp le_rfl)

theorem echo_prefix : ∃ (plan : Plan Builtin) (report : OfflineReport) (sink : MemorySink),
    compile echo { blockSize := 4 } = .ok (.ok plan) ∧
      (fun (report, _, sink) => (report, sink)) <$>
        renderOffline plan { blockSize := 4 } 125000 ({} : MemorySink) (fun _ => false) = .ok (.ok report, sink) ∧
      report = { frames := 6, blocks := 2, cancelled := false, failedNodes := [] } ∧ sink.frames = 6 := by
  obtain ⟨plan, compiled, ⟨_, sink⟩, written, rfl, whole⟩ :
      ∃ plan, compile echo { blockSize := 4 } = .ok (.ok plan) ∧
      ∃ answer, writePrefix plan (({ blockSize := 4 } : Settings).context .offline) 6 false ({} : MemorySink) =
        .ok answer ∧ answer.1 = .ok { frames := 6, blocks := 2, cancelled := false, failedNodes := [] } ∧
          answer.2.frames = 6 := by decide +kernel
  have valid : ({ blockSize := 4 } : Settings).validate = .ok () := by decide +kernel
  have takes : BlockSink.Takes plan.layout.sinkChannels fun _ : MemorySink => True := fun _ _ _ => ⟨rfl, trivial⟩
  have never : ∀ done : Nat, false = true ↔ (⊤ : ℕ∞) ≤ done := by simp
  have covers : 6 = 125000 * ({ blockSize := 4 } : Settings).sampleRate ⌈/⌉ Settings.nanosPerSecond := by decide +kernel
  obtain ⟨frames, early, counted, stopped, same, _⟩ :=
    offline_prefix compiled valid rfl covers (by decide) trivial takes never
  have without : (⊤ : ℕ∞) * (4 : Nat) = ⊤ := ENat.top_mul (by decide)
  rw [without, min_top_right, Nat.cast_inj] at counted
  rw [without, iff_false_intro not_top_lt, iff_false, Bool.not_eq_true] at stopped
  subst counted stopped
  exact ⟨plan, _, sink, compiled, same.trans written, rfl, whole⟩

/-- A plan with places for too many events is not even rendered for no time at all:
the renderer's space is made before it turns out that there is nothing to render. -/
theorem constantIntoGain_unrendered : ∃ plan : Plan Builtin,
    compile constantIntoGain { blockSize := 4, eventCapacity := 2 ^ 60 } = .ok (.ok plan) ∧
      ({ blockSize := 4, eventCapacity := 2 ^ 60 } : Settings).validate = .ok () ∧
      0 * ({ blockSize := 4, eventCapacity := 2 ^ 60 } : Settings).sampleRate ⌈/⌉ Settings.nanosPerSecond < Count.limit ∧
      renderOffline plan { blockSize := 4, eventCapacity := 2 ^ 60 } 0 ({} : MemorySink) (fun _ => false) =
        .error .storage := by
  obtain ⟨plan, compiled, faulted⟩ :
      ∃ plan, compile constantIntoGain { blockSize := 4, eventCapacity := 2 ^ 60 } = .ok (.ok plan) ∧
      renderOffline plan { blockSize := 4, eventCapacity := 2 ^ 60 } 0 ({} : MemorySink) (fun _ => false) =
        .error .storage := by decide +kernel
  exact ⟨plan, compiled, by decide +kernel, by decide +kernel, faulted⟩

end

end Patchbay
