/-
Every run of the services has files.

Between two executions the programs leave the services alone: whatever the services do
next, the programs can do their part of it without meeting an unfinished file.
-/

import EchoProcessing.Platform.Drain
import EchoProcessing.Platform.Pixels

namespace EchoProcessing

open Messaging Orchestrator Image

namespace Deployment

private theorem thread_settleThread (deployment : Deployment) (thread : ℕ) (content : WorkerThread)
    (settlement : Settlement) :
    ((deployment.setThread thread content).settleThread thread settlement).threads thread =
      content := by
  rw [threads_settleThread]
  exact Function.update_self _ _ _

theorem running_of_report {deployment next : Deployment} {thread : ℕ} {settlement : Settlement}
    (stepped : machine.step deployment (.report thread settlement) = some next) :
    (∃ message, (deployment.threads thread).running = some message) ∧
      (next.threads thread).running = none := by
  change deployment.report thread settlement = some next at stepped
  unfold report at stepped
  split at stepped
  · cases stepped
  · rename_i message running
    obtain rfl := Option.some.inj stepped
    refine ⟨⟨message, running⟩, ?_⟩
    have content := thread_settleThread deployment thread (deployment.threads thread).release
      settlement
    exact congrArg WorkerThread.running content

theorem running_of_ending {deployment next : Deployment} {thread : ℕ} {event : Event}
    (ends : event = .fail thread ∨ event = .restart thread)
    (stepped : machine.step deployment event = some next) :
    (next.threads thread).running = none := by
  rcases ends with rfl | rfl
  · obtain rfl : deployment.fail thread = next := Option.some.inj stepped
    exact congrArg WorkerThread.running (thread_settleThread deployment thread _ .givenBack)
  · obtain rfl : deployment.restart thread = next := Option.some.inj stepped
    exact congrArg WorkerThread.running (thread_settleThread deployment thread _ .givenBack)

end Deployment

namespace Site

variable {dataLocal : Bool} {site : Site}

theorem threads_of_unread {thread position : ℕ} {next : Deployment}
    (unread : site.messageAt .worker workerMessage.read position = none)
    (stepped : Deployment.machine.step site.deployment (.work thread position) = some next) :
    next.threads = site.deployment.threads := by
  obtain ⟨_, delivered⟩ := Option.ite_none_right_eq_some.mp stepped
  obtain ⟨body, rest, taken, ⟨_, rfl⟩ | ⟨message, readable, _⟩⟩ :=
    Deployment.deliver_cases delivered
  · exact Deployment.threads_reject _ _ _ _
  · have found : site.messageAt .worker workerMessage.read position = some message :=
      Option.bind_eq_some_iff.mpr ⟨_, taken, readable⟩
    rw [unread] at found
    cases found

/-- Every thread that has a message is about to report it, and no file is only laid down. -/
structure Rested (site : Site) : Prop where
  linked : Linked site
  tiles : SkipIfExists.Tidy site.workers
  results : SkipIfExists.Tidy site.mergers
  ready : ∀ thread message, (site.deployment.threads thread).running = some message →
    ∃ execution, site.executions thread = some execution ∧
      site.workers.phases execution = .ready message

private theorem rested_initial : Rested initial :=
  { linked := linked_initial
    tiles := SkipIfExists.tidy_initial
    results := SkipIfExists.tidy_initial
    ready := fun _ _ running => by cases running }

/-- The site goes along with a step of the deployment. -/
def Lifts (dataLocal : Bool) (site : Site) (event : Deployment.Event) (next : Deployment) :
    Prop :=
  ∃ events after, (machine dataLocal).Walks (Intact dataLocal) site events after ∧
    deployed events = [event] ∧ Rested after ∧ after.deployment = next

theorem Rested.deploy (rested : Rested site) {event : Deployment.Event} {next : Deployment}
    (elsewhere : site.Elsewhere event)
    (stepped : Deployment.machine.step site.deployment event = some next)
    (threads : next.threads = site.deployment.threads) : Lifts dataLocal site event next := by
  have taken : (machine dataLocal).step site (.deploy event) =
      some { site with deployment := next } := by
    change (if site.Elsewhere event then site.deploy event else none) = _
    unfold Site.deploy
    rw [if_pos elsewhere, stepped, Option.map_some]
  refine ⟨[.deploy event], _, .single trivial taken, rfl, ?_, rfl⟩
  exact
    { linked := (step_transition taken).linked rested.linked
      tiles := rested.tiles
      results := rested.results
      ready := fun thread message running => rested.ready thread message (threads ▸ running) }

theorem Rested.ended (rested : Rested site) {event : Event} {inner : Deployment.Event}
    {next : Deployment} {thread execution : ℕ} {ending : SkipIfExists.Event EchoWorkerMessage}
    {workers : SkipIfExists.State EchoWorkerMessage String GdalCall}
    (current : site.executions thread = some execution) (about : thread? inner = some thread)
    (stepped : Deployment.machine.step site.deployment inner = some next)
    (called : (workerJob dataLocal).machine.step site.workers ending = some workers)
    (ends : ending = .report execution ∨ ending = .crash execution)
    (free : (next.threads thread).running = none)
    (transition : Transition dataLocal site event
      ({ site with deployment := next, workers := workers }.setExecution thread none)) :
    Rested ({ site with deployment := next, workers := workers }.setExecution thread none) := by
  have moved := SkipIfExists.step_transition called
  have own : ending.execution = execution := by
    rcases ends with rfl | rfl <;> rfl
  refine
    { linked := transition.linked rested.linked
      tiles := moved.tidy (own ▸ ends) rested.tiles
      results := rested.results
      ready := ?_ }
  intro other message running
  have different : other ≠ thread := by
    rintro rfl
    exact absurd (running.symm.trans free) (Option.some_ne_none message)
  have before : (site.deployment.threads other).running = some message := by
    rw [← (Deployment.step_transition stepped).threads_of_ne]
    · exact running
    · intro same
      exact different (Option.some.inj (same.symm.trans about))
  obtain ⟨mine, assigned, phase⟩ := rested.ready other message before
  refine ⟨mine, (Function.update_of_ne different _ _).trans assigned, ?_⟩
  change workers.phases mine = _
  rw [moved.phases_of_ne]
  · exact phase
  · intro same
    exact different (rested.linked.distinct other thread _ assigned (same.trans own ▸ current))

theorem endExecution_of_step {inner : Deployment.Event} {next : Deployment} {thread : ℕ}
    {ending : SkipIfExists.Event EchoWorkerMessage}
    {workers : SkipIfExists.State EchoWorkerMessage String GdalCall}
    (stepped : Deployment.machine.step site.deployment inner = some next)
    (called : (workerJob dataLocal).machine.step site.workers ending = some workers) :
    site.endExecution dataLocal thread ending inner =
      some ({ site with deployment := next, workers := workers }.setExecution thread none) := by
  unfold endExecution Site.deploy render
  rw [stepped, Option.map_some, Option.bind_some, called]
  rfl

theorem Rested.report (rested : Rested site) {thread : ℕ} {settlement : Deployment.Settlement}
    {next : Deployment}
    (stepped : Deployment.machine.step site.deployment (.report thread settlement) = some next) :
    Lifts dataLocal site (.report thread settlement) next := by
  obtain ⟨⟨message, running⟩, free⟩ := Deployment.running_of_report stepped
  obtain ⟨execution, current, phase⟩ := rested.ready thread message running
  have reported : SkipIfExists.Transition (workerJob dataLocal) site.workers
    (.report execution) _ := .reported phase
  have taken : (machine dataLocal).step site (.report thread settlement) =
      site.endExecution dataLocal thread (.report execution) (.report thread settlement) := by
    change (site.executions thread).bind _ = _
    rw [current, Option.bind_some]
  rw [endExecution_of_step stepped reported.step] at taken
  exact ⟨[.report thread settlement], _, .single trivial taken, rfl,
    rested.ended current rfl stepped reported.step (Or.inl rfl) free (step_transition taken), rfl⟩

theorem Rested.stop (rested : Rested site) {thread : ℕ} {event : Deployment.Event}
    {next : Deployment} (ends : event = .fail thread ∨ event = .restart thread)
    (stepped : Deployment.machine.step site.deployment event = some next) :
    Lifts dataLocal site event next := by
  have free := Deployment.running_of_ending ends stepped
  obtain ⟨own, part, met, crashes⟩ : ∃ own : Event, own.deployment? = some event ∧
      site.Intact dataLocal own ∧
      (machine dataLocal).step site own = site.crash dataLocal thread event := by
    rcases ends with rfl | rfl
    · exact ⟨.fail thread, rfl, trivial, rfl⟩
    · exact ⟨.restart thread, rfl, trivial, rfl⟩
  have about : thread? event = some thread := by
    rcases ends with rfl | rfl <;> rfl
  unfold crash at crashes
  cases current : site.executions thread with
  | none =>
      have taken : (machine dataLocal).step site own = some { site with deployment := next } := by
        rw [crashes, current]
        unfold Site.deploy
        rw [stepped, Option.map_some]
      refine ⟨[own], _, .single met taken, List.filterMap_cons_some part, ?_, rfl⟩
      refine
        { linked := (step_transition taken).linked rested.linked
          tiles := rested.tiles
          results := rested.results
          ready := ?_ }
      intro other message running
      apply rested.ready other message
      rw [← (Deployment.step_transition stepped).threads_of_ne]
      · exact running
      · rintro same
        obtain rfl := Option.some.inj (same.symm.trans about)
        exact absurd (running.symm.trans free) (Option.some_ne_none message)
  | some execution =>
      have crashed : SkipIfExists.Transition (workerJob dataLocal) site.workers
        (.crash execution) _ := .crashed
      rw [current] at crashes
      have taken := crashes.trans (endExecution_of_step stepped crashed.step)
      exact ⟨[own], _, .single met taken, List.filterMap_cons_some part,
        rested.ended current about stepped crashed.step (Or.inr rfl) free (step_transition taken),
        rfl⟩

theorem Linked.of_runs {events : List Event} {after : Site} (linked : Linked site)
    (runs : (machine dataLocal).Runs site events after) : Linked after :=
  runs.invariant (fun _ _ _ linked stepped => (step_transition stepped).linked linked) linked

def tileEvent (thread : ℕ) : SkipIfExists.Event EchoWorkerMessage → Event
  | .check _ => .checkTile thread
  | _ => .callTile thread

theorem deployed_tileEvents (thread : ℕ) (events : List (SkipIfExists.Event EchoWorkerMessage)) :
    deployed (events.map (tileEvent thread)) = [] := by
  apply List.filterMap_eq_nil_iff.mpr
  intro event member
  obtain ⟨inner, _, rfl⟩ := List.mem_map.mp member
  cases inner <;> rfl

def Works {μ : Type} (execution : ℕ) (event : SkipIfExists.Event μ) : Prop :=
  event = .check execution ∨ event = .call execution

private theorem works_calls {μ : Type} (execution count : ℕ) :
    ∀ event ∈ (.check execution :: List.replicate count (.call execution) :
        List (SkipIfExists.Event μ)),
      Works execution event := by
  intro event member
  exact (List.mem_cons.mp member).imp id (fun called => List.eq_of_mem_replicate called)

theorem walk_tile (site : Site) {thread execution : ℕ}
    (current : site.executions thread = some execution)
    {events : List (SkipIfExists.Event EchoWorkerMessage)}
    (works : ∀ event ∈ events, Works execution event)
    {workers : SkipIfExists.State EchoWorkerMessage String GdalCall}
    (walk : (workerJob dataLocal).machine.Walks (SkipIfExists.Intact (workerJob dataLocal))
      site.workers events workers) :
    (machine dataLocal).Walks (Intact dataLocal) site (events.map (tileEvent thread))
      { site with workers := workers } := by
  refine walk.map (fun workers => { site with workers := workers }) (tileEvent thread) ?_ works
  intro state event next own intact stepped
  rcases own with rfl | rfl
  · constructor
    · change (site.executions thread).bind _ = _
      rw [current, Option.bind_some]
      exact Option.map_eq_some_iff.mpr ⟨next, stepped, rfl⟩
    · intro other assigned
      obtain rfl := Option.some.inj (current.symm.trans assigned)
      exact intact
  · constructor
    · change (site.executions thread).bind _ = _
      rw [current, Option.bind_some]
      exact Option.map_eq_some_iff.mpr ⟨next, stepped, rfl⟩
    · intro other assigned
      obtain rfl := Option.some.inj (current.symm.trans assigned)
      exact intact

theorem Rested.work (rested : Rested site) {thread position : ℕ} {next : Deployment}
    (stepped : Deployment.machine.step site.deployment (.work thread position) = some next) :
    Lifts dataLocal site (.work thread position) next := by
  cases found : site.messageAt .worker workerMessage.read position with
  | none => exact rested.deploy found stepped (threads_of_unread found stepped)
  | some message =>
      obtain ⟨execution, free⟩ := rested.tiles.room
      have idle := free execution (le_refl execution)
      obtain ⟨count, workers, walk, completes⟩ :=
        rested.tiles.exists_ready (workerJob dataLocal) idle message
      obtain ⟨_, begun, delivered, onward⟩ := Machine.walks_cons.mp walk
      have taken : (machine dataLocal).step site (.work thread position execution) =
          some ({ site with deployment := next, workers := begun }.setExecution thread
            (some execution)) := by
        change site.work dataLocal thread position execution = _
        unfold Site.work Site.deploy render
        rw [found]
        dsimp only
        rw [stepped, Option.map_some, Option.bind_some, delivered]
        rfl
      have calls := walk_tile
        ({ site with deployment := next, workers := begun }.setExecution thread (some execution))
        (Function.update_self _ _ _) (works_calls execution count) onward
      have met : site.Intact dataLocal (.work thread position execution) := trivial
      have whole := Machine.Walks.cons met taken calls
      refine ⟨_, _, whole, ?_, ?_, rfl⟩
      · exact congrArg (List.cons _) (deployed_tileEvents thread _)
      · refine
          { linked := rested.linked.of_runs whole.runs
            tiles := completes.tidy rested.tiles
            results := rested.results
            ready := ?_ }
        intro other own running
        by_cases same : other = thread
        · subst same
          obtain rfl : message = own :=
            Option.some.inj ((running_of_work found stepped).symm.trans running)
          exact ⟨execution, Function.update_self _ _ _, completes.ready⟩
        · have before : (site.deployment.threads other).running = some own := by
            rw [← (Deployment.step_transition stepped).threads_of_ne]
            · exact running
            · intro equal
              exact same (Option.some.inj equal).symm
          obtain ⟨mine, assigned, phase⟩ := rested.ready other own before
          refine ⟨mine, (Function.update_of_ne same _ _).trans assigned, ?_⟩
          have different : mine ≠ execution := by
            rintro rfl
            rw [idle] at phase
            cases phase
          exact (completes.phases mine different).trans phase

def resultEvent (position : ℕ) : SkipIfExists.Event EchoMergeMessage → Event
  | .deliver execution _ => .receiveMerge execution position
  | .check execution => .checkResult execution
  | .call execution => .callResult execution
  | .report execution => .failMerge execution
  | .crash execution => .failMerge execution

private theorem deployed_resultEvents (position : ℕ)
    (events : List (SkipIfExists.Event EchoMergeMessage)) :
    deployed (events.map (resultEvent position)) = [] := by
  apply List.filterMap_eq_nil_iff.mpr
  intro event member
  obtain ⟨inner, _, rfl⟩ := List.mem_map.mp member
  cases inner <;> rfl

private theorem walk_result (site : Site) {position execution : ℕ} {message : EchoMergeMessage}
    (found : site.messageAt .merge mergeMessage.read position = some message)
    {events : List (SkipIfExists.Event EchoMergeMessage)}
    (works : ∀ event ∈ events, event = .deliver execution message ∨ Works execution event)
    {mergers : SkipIfExists.State EchoMergeMessage String GdalCall}
    (walk : (mergerJob dataLocal).machine.Walks (SkipIfExists.Intact (mergerJob dataLocal))
      site.mergers events mergers) :
    (machine dataLocal).Walks (Intact dataLocal) site (events.map (resultEvent position))
      { site with mergers := mergers } := by
  refine walk.map (fun mergers => { site with mergers := mergers }) (resultEvent position) ?_ works
  intro state event next own intact stepped
  have built : { site with mergers := state }.build dataLocal event =
      some { site with mergers := next } := Option.map_eq_some_iff.mpr ⟨next, stepped, rfl⟩
  rcases own with rfl | rfl | rfl
  · refine ⟨?_, trivial⟩
    change { site with mergers := state }.receiveMerge dataLocal execution position = _
    have same : { site with mergers := state }.messageAt .merge mergeMessage.read position =
        some message := found
    unfold Site.receiveMerge
    rw [same]
    exact built
  · exact ⟨built, intact⟩
  · exact ⟨built, intact⟩

private theorem merge_of_step {execution position : ℕ} {settlement : Deployment.Settlement}
    {message : EchoMergeMessage} {next : Deployment}
    {mergers : SkipIfExists.State EchoMergeMessage String GdalCall}
    (found : site.messageAt .merge mergeMessage.read position = some message)
    (ready : site.mergers.phases execution = .ready message)
    (stepped : Deployment.machine.step site.deployment (.merge position settlement) = some next)
    (called : (mergerJob dataLocal).machine.step site.mergers (.report execution) =
      some mergers) :
    (machine dataLocal).step site (.merge execution position settlement) =
      some { site with deployment := next, mergers := mergers } := by
  change site.merge dataLocal execution position settlement = _
  unfold Site.merge Site.deploy build
  rw [found]
  dsimp only
  rw [if_pos ready, stepped, Option.map_some, Option.bind_some, called]
  rfl

theorem Rested.merge (rested : Rested site) {position : ℕ} {settlement : Deployment.Settlement}
    {next : Deployment}
    (stepped : Deployment.machine.step site.deployment (.merge position settlement) = some next) :
    Lifts dataLocal site (.merge position settlement) next := by
  have threads : next.threads = site.deployment.threads :=
    funext (fun _ => (Deployment.step_transition stepped).threads_of_ne nofun)
  cases found : site.messageAt .merge mergeMessage.read position with
  | none => exact rested.deploy found stepped threads
  | some message =>
      obtain ⟨execution, free⟩ := rested.results.room
      obtain ⟨count, mergers, walk, completes⟩ := rested.results.exists_ready (mergerJob dataLocal)
        (free execution (le_refl execution)) message
      have calls := walk_result site found
        (List.forall_mem_cons.mpr ⟨Or.inl rfl, fun event member =>
          Or.inr (works_calls execution count event member)⟩) walk
      have reported : SkipIfExists.Transition (mergerJob dataLocal) mergers
        (.report execution) _ := .reported completes.ready
      let built : Site := { site with mergers := mergers }
      have here : built.messageAt .merge mergeMessage.read position = some message := found
      have taken : (machine dataLocal).step built (.merge execution position settlement) = _ :=
        merge_of_step here completes.ready stepped reported.step
      have met : built.Intact dataLocal (.merge execution position settlement) := trivial
      have whole := calls.trans (.single met taken)
      refine ⟨_, _, whole, ?_, ?_, rfl⟩
      · unfold deployed
        rw [List.filterMap_append]
        exact congrArg (fun before => before ++ _) (deployed_resultEvents position _)
      · exact
          { linked := rested.linked.of_runs whole.runs
            tiles := rested.tiles
            results := reported.tidy (Or.inl rfl) (completes.tidy rested.results)
            ready := fun thread message running =>
              rested.ready thread message (threads ▸ running) }

/-- Between two executions the programs leave the services all their steps. -/
theorem Rested.lifts (rested : Rested site) {event : Deployment.Event} {next : Deployment}
    (stepped : Deployment.machine.step site.deployment event = some next) :
    Lifts dataLocal site event next := by
  have threads : thread? event = none → next.threads = site.deployment.threads := by
    intro elsewhere
    funext thread
    apply (Deployment.step_transition stepped).threads_of_ne
    rw [elsewhere]
    exact nofun
  cases event with
  | work thread position => exact rested.work stepped
  | report thread settlement => exact rested.report stepped
  | fail thread => exact rested.stop (Or.inl rfl) stepped
  | restart thread => exact rested.stop (Or.inr rfl) stepped
  | merge position settlement => exact rested.merge stepped
  | _ => exact rested.deploy trivial stepped (threads rfl)

theorem Rested.lifts_runs (dataLocal : Bool) (rested : Rested site) {events : List Deployment.Event}
    {next : Deployment} (reached : Deployment.machine.Runs site.deployment events next) :
    ∃ whole after, (machine dataLocal).Walks (Intact dataLocal) site whole after ∧
      deployed whole = events ∧ Rested after ∧ after.deployment = next := by
  refine Machine.exists_walk_of_runs Event.deployment?
    (fun site deployment => Rested site ∧ site.deployment = deployment) ?_ ⟨rested, rfl⟩ reached
  rintro state _ event next ⟨holds, rfl⟩ stepped
  exact holds.lifts stepped

theorem deployed_runs {events : List Event} {after : Site}
    (runs : (machine dataLocal).Runs site events after) :
    Deployment.machine.Runs site.deployment (deployed events) after.deployment := by
  induction events generalizing site with
  | nil =>
      obtain rfl := (Machine.runs_nil _ _ _).mp runs
      rfl
  | cons event rest ih =>
      obtain ⟨next, stepped, onward⟩ := (Machine.runs_cons _ _ _ _ _).mp runs
      unfold deployed
      rcases (step_transition stepped).deployment_step with ⟨inside, same⟩ | ⟨inner, part, inside⟩
      · rw [List.filterMap_cons_none inside, ← same]
        exact ih onward
      · rw [List.filterMap_cons_some part]
        exact .cons inside (ih onward)

/-- Whatever the services do, the programs can do their part of it so that each of them finds
its file finished or not there, and lays it down once. -/
theorem every_run_has_files (dataLocal : Bool) {events : List Deployment.Event}
    {deployment : Deployment} (reached : Deployment.machine.Runs .initial events deployment) :
    ∃ whole site, deployed whole = events ∧ (machine dataLocal).Runs initial whole site ∧
      (machine dataLocal).EveryStep (Intact dataLocal) initial whole ∧
      site.deployment = deployment := by
  obtain ⟨whole, site, walk, own, _, ends⟩ := rested_initial.lifts_runs dataLocal reached
  exact ⟨whole, site, own, walk.runs, walk.every, ends⟩

theorem every_run_has_files_redelivered :
    ∃ whole site, deployed whole = Deployment.Sample.redelivered ∧
      (machine true).Runs initial whole site := by
  have enabled : (Deployment.machine.run .initial Deployment.Sample.redelivered).isSome = true := by
    decide +kernel
  obtain ⟨deployment, reached⟩ := Option.isSome_iff_exists.mp enabled
  obtain ⟨whole, site, own, runs, _⟩ := every_run_has_files true reached
  exact ⟨whole, site, own, runs⟩

end Site

end EchoProcessing
