import BipaNodes.App.Atomic
import BipaNodes.App.TimedProperties
import Mathlib.Algebra.Group.Action.Defs

/-!
# How old the served ranking can be

While the importer runs, a SELECT finds a snapshot whose age is bounded by the
number of ticks since and by the pace of the runtime.
-/

set_option autoImplicit false

namespace BipaNodes.App

open Domain (Node)
open Importer (ImportInterval tickTolerance)

/-- What the runtime promises: how late it runs a task that is ready, and how
long an iteration takes. -/
structure Pace where
  late : Nanos
  duration : Nanos

/-- The longest that the tick of an import can be behind that of the one before. -/
def Pace.reach (pace : Pace) (interval : ImportInterval) : Nanos :=
  max pace.duration (interval.length + pace.late)

namespace Timed

variable {interval : ImportInterval} {world : World} {pace : Pace} {state next : Timed}

def Timely (pace : Pace) (state : Timed) : Prop :=
  match state.service.loop with
  | .checkToken =>
      match state.ticker with
      | none => state.now ≤ state.spawnedAt + pace.late
      | some ticker => state.polled = true → state.now ≤ ticker.deadline + pace.late
  | .awaiting _ =>
      match state.ticks.getLast? with
      | none => True
      | some tick => state.now ≤ tick.2 + pace.duration
  | _ => True

instance (pace : Pace) (state : Timed) : Decidable (state.Timely pace) := by
  unfold Timely
  split
  · split <;> infer_instance
  · split <;> infer_instance
  · infer_instance

/-!
## Invariant
-/

/-- At the `select!` after an import. -/
def Waiting (interval : ImportInterval) (pace : Pace) (state : Timed) : Prop :=
  ∃ tick ticker, state.ticks.getLast? = some tick ∧ state.ticker = some ticker ∧
    ticker.deadline ≤ tick.2 + interval.length ∧
    (if state.polled then state.now ≤ ticker.deadline + pace.late
      else state.now ≤ tick.2 + pace.duration)

/-- Between a tick and the log line of its import. -/
def Running (interval : ImportInterval) (pace : Pace) (state : Timed) : Prop :=
  ∃ tick ticker, state.ticks.getLast? = some tick ∧ state.ticker = some ticker ∧
    ticker.deadline ≤ tick.2 + interval.length ∧ state.now ≤ tick.2 + pace.duration

def AtPace (interval : ImportInterval) (pace : Pace) (state : Timed) : Prop :=
  match state.service.loop with
  | .notSpawned => state.ticks = [] ∧ state.ticker = none
  | .checkToken =>
      state.ticks = [] ∧ state.ticker = none ∧ state.now ≤ state.spawnedAt + pace.late ∨
        state.Waiting interval pace
  | .checkTick =>
      (state.ticks = [] ∧ state.now ≤ state.spawnedAt + pace.late ∧
        ∃ ticker, state.ticker = some ticker ∧ ticker.deadline ≤ state.now) ∨
        state.Waiting interval pace
  | .ticked | .awaiting _ | .logging _ => state.Running interval pace
  | .stopped | .crashed => True

/-- The tick of an iteration comes before its import. -/
def Counted (state : Timed) : Prop :=
  match state.service.loop with
  | .ticked => state.ticks.length = state.service.started + 1
  | .crashed => True
  | _ => state.ticks.length = state.service.started

structure Paced (interval : ImportInterval) (pace : Pace) (state : Timed) : Prop where
  periodic : ∀ ticker, state.ticker = some ticker → ticker.period = interval.length
  chain : state.ticks.IsChain fun earlier later =>
    later.2 ≤ earlier.2 + pace.reach interval
  first : ∀ tick, state.ticks.head? = some tick → tick.2 ≤ state.spawnedAt + pace.late
  counted : state.Counted
  atPace : state.AtPace interval pace

theorem Paced.initial : Paced interval pace {} where
  periodic := nofun
  chain := .nil
  first := nofun
  counted := rfl
  atPace := ⟨rfl, rfl⟩

theorem le_reach_of_late {start deadline now : Nanos} (due : deadline ≤ start + interval.length)
    (soon : now ≤ deadline + pace.late) : now ≤ start + pace.reach interval :=
  calc
    now ≤ deadline + pace.late := soon
    _ ≤ start + interval.length + pace.late := Nat.add_le_add_right due _
    _ = start + (interval.length + pace.late) := Nat.add_assoc ..
    _ ≤ start + pace.reach interval := Nat.add_le_add_left (Nat.le_max_right _ _) _

theorem le_reach_of_duration {start now : Nanos} (soon : now ≤ start + pace.duration) :
    now ≤ start + pace.reach interval :=
  Nat.le_trans soon (Nat.add_le_add_left (Nat.le_max_left _ _) _)

theorem Waiting.now_le (waiting : state.Waiting interval pace) :
    ∃ tick, state.ticks.getLast? = some tick ∧ state.now ≤ tick.2 + pace.reach interval := by
  obtain ⟨tick, ticker, last, _, deadline, now⟩ := waiting
  refine ⟨tick, last, ?_⟩
  split at now
  · exact le_reach_of_late deadline now
  · exact le_reach_of_duration now

theorem Running.now_le (running : state.Running interval pace) :
    ∃ tick, state.ticks.getLast? = some tick ∧ state.now ≤ tick.2 + pace.reach interval := by
  obtain ⟨tick, _, last, _, _, now⟩ := running
  exact ⟨tick, last, le_reach_of_duration now⟩

/-- While the importer runs, the last tick is not far behind. -/
theorem Paced.now_le (paced : Paced interval pace state) (running : ¬ state.service.loop.Over) :
    state.ticks = [] ∧ state.now ≤ state.spawnedAt + pace.late ∨
      ∃ tick, state.ticks.getLast? = some tick ∧ state.now ≤ tick.2 + pace.reach interval := by
  have atPace := paced.atPace
  unfold AtPace at atPace
  split at atPace
  · next loop => simp [loop, Importer.LoopPhase.Over] at running
  · rcases atPace with unpolled | waiting
    · exact .inl ⟨unpolled.1, unpolled.2.2⟩
    · exact .inr waiting.now_le
  · rcases atPace with early | waiting
    · exact .inl ⟨early.1, early.2.1⟩
    · exact .inr waiting.now_le
  · exact .inr atPace.now_le
  · exact .inr atPace.now_le
  · exact .inr atPace.now_le
  · next loop => simp [loop, Importer.LoopPhase.Over] at running
  · next loop => simp [loop, Importer.LoopPhase.Over] at running

/-!
## Steps
-/

theorem Paced.elapse (paced : Paced interval pace state) {duration : Nanos}
    (elapsed : state.elapse duration = some next) (timely : next.Timely pace) :
    Paced interval pace next := by
  unfold Timed.elapse at elapsed
  split at elapsed
  · next suspended =>
      cases elapsed
      refine ⟨paced.periodic, paced.chain, paced.first, paced.counted, ?_⟩
      have atPace := paced.atPace
      unfold AtPace at atPace ⊢
      unfold Timely at timely
      unfold Timed.suspended at suspended
      cases loop : state.service.loop with
      | checkToken =>
          simp only [loop] at atPace suspended timely ⊢
          rcases atPace with unpolled | waiting
          · obtain ⟨none, unknown, _⟩ := unpolled
            simp only [unknown] at timely
            exact .inl ⟨none, unknown, timely⟩
          · obtain ⟨tick, ticker, last, known, deadline, _⟩ := waiting
            simp only [known, Option.isNone_some, Bool.false_or] at suspended
            simp only [known] at timely
            refine .inr ⟨tick, ticker, last, known, deadline, ?_⟩
            simpa [suspended] using timely suspended
      | awaiting iteration =>
          simp only [loop] at atPace timely ⊢
          obtain ⟨tick, ticker, last, known, deadline, _⟩ := atPace
          simp only [last] at timely
          exact ⟨tick, ticker, last, known, deadline, timely⟩
      | checkTick | ticked | logging => simp [loop] at suspended
      | notSpawned =>
          simp only [loop] at atPace ⊢
          exact atPace
      | stopped | crashed => simp only
  · cases elapsed

theorem Paced.pollToken (paced : Paced interval pace state) {service : Service}
    (before : state.service.loop = .checkToken)
    (after : service.loop = .checkTick ∨ service.loop = .stopped)
    (started : service.started = state.service.started) :
    Paced interval pace (state.pollToken interval service) := by
  have atPace := paced.atPace
  have counted := paced.counted
  simp only [AtPace, before] at atPace
  simp only [Counted, before] at counted
  rcases atPace with unpolled | waiting
  · obtain ⟨none, unknown, soon⟩ := unpolled
    simp only [Timed.pollToken, unknown]
    refine ⟨?_, paced.chain, paced.first, ?_, ?_⟩
    · intro ticker known
      cases known
      rfl
    · rcases after with goesOn | stops
      · simp only [Counted, goesOn, started, counted]
      · simp only [Counted, stops, started, counted]
    · rcases after with goesOn | stops
      · simp only [AtPace, goesOn]
        exact .inl ⟨none, soon, _, rfl, Nat.le_refl _⟩
      · simp only [AtPace, stops]
  · obtain ⟨tick, ticker, last, known, deadline, now⟩ := waiting
    simp only [Timed.pollToken, known]
    refine ⟨known ▸ paced.periodic, paced.chain, paced.first, ?_, ?_⟩
    · rcases after with goesOn | stops
      · simp only [Counted, goesOn, started, counted]
      · simp only [Counted, stops, started, counted]
    · rcases after with goesOn | stops
      · simp only [AtPace, goesOn]
        exact .inr ⟨tick, ticker, last, rfl, deadline, now⟩
      · simp only [AtPace, stops]

/-- A tick comes within reach of the one before. -/
theorem Paced.tick (paced : Paced interval pace state) {service : Service}
    {ticker : Ticker Nanos} (before : state.service.loop = .checkTick)
    (after : service.loop = .ticked) (started : service.started = state.service.started)
    (known : state.ticker = some ticker) (due : ticker.deadline ≤ state.now) :
    Paced interval pace
      { state with
        service
        ticker := some (ticker.afterTick tickTolerance state.now)
        ticks := state.ticks ++ [(ticker.deadline, state.now)] } := by
  have running : ¬ state.service.loop.Over := by simp [before, Importer.LoopPhase.Over]
  have near := paced.now_le running
  have counted := paced.counted
  simp only [Counted, before] at counted
  refine ⟨?_, ?_, ?_, ?_, ?_⟩
  · intro later same
    rw [← Option.some.inj same, Ticker.period_afterTick]
    exact paced.periodic ticker known
  · rcases near with early | later
    · rw [early.1]
      exact .singleton _
    · obtain ⟨tick, last, now⟩ := later
      refine List.isChain_append.mpr ⟨paced.chain, .singleton _, ?_⟩
      intro other otherLast following followingFirst
      cases followingFirst
      rw [last] at otherLast
      cases otherLast
      exact now
  · intro tick head
    rcases near with early | later
    · rw [early.1] at head
      cases head
      exact early.2
    · obtain ⟨last, lastKnown, _⟩ := later
      have nonempty : state.ticks ≠ [] := by
        intro none
        rw [none] at lastKnown
        cases lastKnown
      rw [List.head?_append_of_ne_nil _ nonempty] at head
      exact paced.first tick head
  · simp only [Counted, after, List.length_append, List.length_singleton, counted, started]
  · simp only [AtPace, after]
    refine ⟨(ticker.deadline, state.now), _, List.getLast?_concat, rfl, ?_, Nat.le_add_right _ _⟩
    rw [← paced.periodic ticker known]
    exact Ticker.deadline_afterTick_le due

theorem Paced.pollTick (paced : Paced interval pace state) {service : Service} {ready : Bool}
    (before : state.service.loop = .checkTick)
    (after : service.loop = if ready then .ticked else .checkToken)
    (started : service.started = state.service.started)
    (polled : state.pollTick ready service = some next) : Paced interval pace next := by
  unfold Timed.pollTick at polled
  split at polled
  · cases polled
  · next ticker known =>
      split at polled
      · next due =>
          cases ready with
          | false => cases polled
          | true =>
              cases polled
              exact paced.tick before after started known due
      · next early =>
          cases ready with
          | true => cases polled
          | false =>
              cases polled
              have atPace := paced.atPace
              have counted := paced.counted
              simp only [AtPace, before] at atPace
              simp only [Counted, before] at counted
              refine ⟨paced.periodic, paced.chain, paced.first, ?_, ?_⟩
              · simp only [Counted, after, started]
                exact counted
              · simp only [AtPace, after]
                rcases atPace with first | waiting
                · obtain ⟨_, _, other, otherKnown, due⟩ := first
                  rw [known] at otherKnown
                  cases otherKnown
                  exact absurd due early
                · obtain ⟨tick, other, last, otherKnown, deadline, _⟩ := waiting
                  rw [known] at otherKnown
                  cases otherKnown
                  refine .inr ⟨tick, ticker, last, known, deadline, ?_⟩
                  exact Nat.le_trans (Nat.le_of_not_le early) (Nat.le_add_right _ _)

theorem Paced.log (paced : Paced interval pace state) {service : Service}
    {result : Except Importer.ImportError Importer.ImportOutcome}
    (before : state.service.loop = .logging result) (after : service.loop = .checkToken)
    (started : service.started = state.service.started) :
    Paced interval pace (state.log service) := by
  have atPace := paced.atPace
  have counted := paced.counted
  simp only [AtPace, before] at atPace
  simp only [Counted, before] at counted
  have loop : (state.log service).service.loop = .checkToken := after
  refine ⟨paced.periodic, paced.chain, paced.first, ?_, ?_⟩
  · simp only [Counted, loop]
    simp only [Timed.log, started, counted]
  · obtain ⟨tick, ticker, last, known, deadline, now⟩ := atPace
    simp only [AtPace, loop]
    exact .inr ⟨tick, ticker, last, known, deadline, now⟩

theorem Paced.service (paced : Paced interval pace state) (orderly : state.service.Orderly)
    {event : ServiceEvent} {service : Service}
    (moved : (App.service world).step state.service event = some service)
    (followed : state.follow interval event service = some next)
    (timely : next.Timely pace) : Paced interval pace next := by
  have atPace := paced.atPace
  have counted := paced.counted
  unfold AtPace at atPace
  unfold Counted at counted
  cases Service.loop_move moved with
  | spawns serve after started =>
      cases followed
      have atServe := orderly.atServe
      simp only [Service.AtServe, serve] at atServe
      simp only [atServe.1] at atPace counted
      obtain ⟨none, unknown⟩ := atPace
      refine ⟨paced.periodic, paced.chain, ?_, ?_, ?_⟩
      · intro tick head
        simp [none] at head
      · simp only [Counted, after, started, counted]
      · simp only [AtPace, after]
        exact .inl ⟨none, unknown, Nat.le_add_right _ _⟩
  | polls before after started =>
      cases followed
      exact paced.pollToken before after started
  | ticks before after started => exact paced.pollTick before after started followed
  | waits before after started => exact paced.pollTick before after started followed
  | starts before after started =>
      cases followed
      simp only [before] at atPace counted
      refine ⟨paced.periodic, paced.chain, paced.first, ?_, ?_⟩
      · simp only [Counted, after, started, counted]
      · simp only [AtPace, after]
        exact atPace
  | joins before after started =>
      cases followed
      simp only [before] at atPace counted
      refine ⟨paced.periodic, paced.chain, paced.first, ?_, ?_⟩
      · simp only [Counted, after, started, counted]
      · simp only [AtPace, after]
        exact atPace
  | logs before after started =>
      cases followed
      exact paced.log before after started
  | crashes after =>
      cases followed
      refine ⟨paced.periodic, paced.chain, paced.first, ?_, ?_⟩
      · simp only [Counted, after]
      · simp only [AtPace, after]
  | stays elsewhere same started =>
      rw [follow_elsewhere elsewhere] at followed
      cases followed
      refine ⟨paced.periodic, paced.chain, paced.first, ?_, ?_⟩
      · simp only [Counted, same, started]
        exact counted
      · simp only [AtPace, same]
        exact atPace

/-!
## Age
-/

theorem Paced.age_le (paced : Paced interval pace state) (running : ¬ state.service.loop.Over)
    {iteration : Nat} {tick : Nanos × Nanos} (found : state.ticks[iteration]? = some tick) :
    state.now ≤ tick.2 + (state.ticks.length - iteration) * pace.reach interval := by
  have inside : iteration < state.ticks.length := (List.getElem?_eq_some_iff.mp found).1
  rcases paced.now_le running with early | later
  · rw [early.1] at inside
    exact absurd inside (Nat.not_lt_zero _)
  · obtain ⟨last, ends, now⟩ := later
    have count : state.ticks.length - iteration = state.ticks.length - 1 - iteration + 1 := by
      omega
    calc
      state.now ≤ last.2 + pace.reach interval := now
      _ ≤ tick.2 + (state.ticks.length - 1 - iteration) • pace.reach interval +
            pace.reach interval :=
          Nat.add_le_add_right (paced.chain.getLast?_le_getElem?_add found ends) _
      _ = tick.2 + (state.ticks.length - iteration) * pace.reach interval := by
          rw [count, Nat.succ_mul, smul_eq_mul, Nat.add_assoc]

/-- Before the first tick the loop has just been spawned. -/
theorem Paced.begun_le (paced : Paced interval pace state) (running : ¬ state.service.loop.Over) :
    state.now ≤
      state.spawnedAt + pace.late + state.ticks.length * pace.reach interval := by
  cases ticks : state.ticks with
  | nil =>
      rcases paced.now_le running with early | later
      · exact Nat.le_trans early.2 (Nat.le_add_right _ _)
      · obtain ⟨last, ends, _⟩ := later
        rw [ticks] at ends
        cases ends
  | cons first rest =>
      have head : state.ticks.head? = some first := by rw [ticks]; rfl
      have found : state.ticks[0]? = some first := by rw [ticks]; rfl
      rw [← ticks]
      exact Nat.le_trans (paced.age_le running found)
        (Nat.add_le_add_right (paced.first first head) _)

end Timed

/-!
## What readers get
-/

/-- The list of the last commit, with an age in terms of the ticks from that of its
own import on; without a commit nothing, with an age of the importer in terms of
all its ticks. -/
def Fresh (interval : ImportInterval) (world : World) (pace : Pace) (state : Timed)
    (nodes : List Node) : Prop :=
  match state.service.table.commits.getLast? with
  | none =>
      nodes = [] ∧ state.now ≤
        state.spawnedAt + pace.late + state.ticks.length * pace.reach interval
  | some iteration =>
      world.fetched iteration = .ok nodes ∧ ∃ tick, state.ticks[iteration]? = some tick ∧
        state.now ≤ tick.2 + (state.ticks.length - iteration) * pace.reach interval

/-- A SELECT of a reader while the importer runs finds rows that will be listed
as a fresh ranking, however the database delivers them. -/
def ServesFresh (interval : ImportInterval) (world : World) (pace : Pace) (before : Timed)
    (event : TimedEvent) (after : Timed) : Prop :=
  ∀ reader, event = .service (.select reader) → ¬ before.service.loop.Over →
    ∃ rows seen, after.service.readers reader = .selected rows seen ∧
      ∀ delivered, Storage.OrderedByRank rows delivered →
        ∃ nodes, Storage.listNodes (.ok delivered) = .ok nodes ∧
          Fresh interval world pace before nodes

namespace Timed

variable {interval : ImportInterval} {world : World} {pace : Pace} {state next : Timed}

structure Serving (interval : ImportInterval) (world : World) (pace : Pace) (state : Timed) :
    Prop where
  consistent : state.service.Consistent world
  paced : Paced interval pace state

theorem Serving.initial : Serving interval world pace {} :=
  ⟨Service.Consistent.initial, Paced.initial⟩

theorem Serving.step (serving : Serving interval world pace state) {event : TimedEvent}
    (stepped : (timed interval world).step state event = some next)
    (timely : next.Timely pace) : Serving interval world pace next := by
  cases event with
  | elapse duration =>
      have paced := serving.paced.elapse stepped timely
      simp only [timed, Timed.elapse] at stepped
      split at stepped
      · cases stepped
        exact ⟨serving.consistent, paced⟩
      · cases stepped
  | service event =>
      obtain ⟨service, moved, followed⟩ := Option.bind_eq_some_iff.mp stepped
      refine ⟨?_, serving.paced.service serving.consistent.orderly moved followed timely⟩
      rw [service_follow followed]
      exact serving.consistent.step moved

theorem Serving.fresh (serving : Serving interval world pace state)
    (running : ¬ state.service.loop.Over) {nodes : List Node}
    (last : LastImport world state.service.table.commits nodes) :
    Fresh interval world pace state nodes := by
  unfold LastImport at last
  unfold Fresh
  cases latest : state.service.table.commits.getLast? with
  | none =>
      simp only [latest] at last ⊢
      exact ⟨last, serving.paced.begun_le running⟩
  | some iteration =>
      simp only [latest] at last ⊢
      have started := serving.consistent.committed_started (List.mem_of_getLast? latest)
      have inside : iteration < state.ticks.length := by
        have counted := serving.paced.counted
        unfold Counted at counted
        split at counted
        · omega
        · next crashed => simp [crashed, Importer.LoopPhase.Over] at running
        · omega
      have found := List.getElem?_eq_getElem inside
      exact ⟨last.1, _, found, serving.paced.age_le running found⟩

theorem Serving.serves (serving : Serving interval world pace state) {event : TimedEvent}
    (stepped : (timed interval world).step state event = some next) :
    ServesFresh interval world pace state event next := by
  intro reader selects running
  subst selects
  obtain ⟨service, moved, followed⟩ := Option.bind_eq_some_iff.mp stepped
  cases followed
  have selected := (serving.consistent.snapshotIntegrity moved).selects reader rfl
  refine ⟨_, _, selected, ?_⟩
  intro delivered ordered
  obtain ⟨nodes, listed, last⟩ := serving.consistent.kept.holds.listNodes ordered
  exact ⟨nodes, listed, serving.fresh running last⟩

end Timed

/-- Where the runtime keeps its pace, every ranking that is served while the
importer runs is at most as many reaches old as there have been ticks from its
own on: one while the next import waits for its tick, two while it runs, one more
for each import that fails. -/
theorem served_fresh (interval : ImportInterval) (world : World) (pace : Pace)
    {events : List TimedEvent}
    (timely : (timed interval world).EveryStep (fun _ _ after => after.Timely pace) {} events) :
    (timed interval world).EveryStep (ServesFresh interval world pace) {} events := by
  apply @Machine.EveryStep.of_invariant _ _ _ (Timed.Serving interval world pace)
    (fun _ _ after => after.Timely pace)
  · intro before event after serving stepped timely
    exact serving.step stepped timely
  · intro before event after serving stepped
    exact serving.serves stepped
  · exact Timed.Serving.initial
  · exact timely

/-- A read a minute after the first import has begun. -/
theorem served_fresh_sample :
    let interval : ImportInterval := { length := Nanos.seconds 60, positive := by decide }
    let pace : Pace := { late := Nanos.millis 5, duration := Nanos.seconds 2 }
    let events : List TimedEvent :=
      [.service .spawnImporter, .elapse (Nanos.millis 3)] ++
        (importEvents 0 []).map TimedEvent.service ++
        [.elapse (Nanos.seconds 1), .service (.succeeds 0), .service .joinImport, .service .log,
          .service .pollToken, .service (.pollTick false), .elapse (Nanos.seconds 59),
          .service (.select 0)]
    ((timed interval sampleWorld).run {} events).map Timed.now =
        some (Nanos.millis 3 + Nanos.seconds 60) ∧
      (timed interval sampleWorld).EveryStep (ServesFresh interval sampleWorld pace) {} events := by
  intro interval pace events
  have timely : (timed interval sampleWorld).EveryStep (fun _ _ after => after.Timely pace) {}
      events := by
    decide +kernel
  exact ⟨by decide +kernel, served_fresh interval sampleWorld pace timely⟩

end BipaNodes.App
