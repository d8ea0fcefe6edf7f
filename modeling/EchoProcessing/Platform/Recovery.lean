/-
Every request can be rendered.

After a run in which no program stopped between laying its file down and finishing it, each
file that is only laid down still has its program. The programs that fill a file finish it,
the other threads give their messages back, and then the services are left to end with the
image of each request.
-/

import EchoProcessing.Platform.Completion

namespace EchoProcessing

open Messaging Orchestrator Image

namespace Site

/-- No program ends between laying its file down and finishing it. -/
def Lasting (site : Site) : Event → Prop
  | .fail thread => ∀ execution ∈ site.executions thread,
      SkipIfExists.Lasting site.workers (.crash execution)
  | .restart thread => ∀ execution ∈ site.executions thread,
      SkipIfExists.Lasting site.workers (.crash execution)
  | .failMerge execution => SkipIfExists.Lasting site.mergers (.crash execution)
  | _ => True

instance Lasting.decidable (site : Site) : (event : Event) → Decidable (site.Lasting event)
  | .fail thread => inferInstanceAs (Decidable (∀ execution ∈ site.executions thread,
      SkipIfExists.Lasting site.workers (.crash execution)))
  | .restart thread => inferInstanceAs (Decidable (∀ execution ∈ site.executions thread,
      SkipIfExists.Lasting site.workers (.crash execution)))
  | .failMerge execution => SkipIfExists.Lasting.decidable _ (.crash execution)
  | .deploy _ | .work _ _ _ | .checkTile _ | .callTile _ | .report _ _ | .receiveMerge _ _
  | .checkResult _ | .callResult _ | .merge _ _ _ => isTrue trivial

variable {dataLocal : Bool} {site next : Site} {event : Event}

/-- Each execution of a worker belongs to a thread, each thread with a message is in one, and
whatever is only laid down can still be finished. -/
structure Tended (dataLocal : Bool) (site : Site) : Prop where
  linked : Linked site
  busy : ∀ execution message, (site.workers.phases execution).message? = some message →
    ∃ thread, site.executions thread = some execution
  held : ∀ thread message, (site.deployment.threads thread).running = some message →
    ∃ execution, site.executions thread = some execution
  tiles : SkipIfExists.Tended (workerJob dataLocal) site.workers
  results : SkipIfExists.Tended (mergerJob dataLocal) site.mergers

theorem tended_initial : Tended dataLocal initial :=
  { linked := linked_initial
    busy := fun _ _ given => by cases given
    held := fun _ _ running => by cases running
    tiles := SkipIfExists.tended_initial _
    results := SkipIfExists.tended_initial _ }

private theorem thread?_of_ending {ending : Deployment.Event} {thread : ℕ}
    (ends : ending = .fail thread ∨ ending = .restart thread) :
    thread? ending = some thread := by
  rcases ends with rfl | rfl <;> rfl

private theorem threads_of_elsewhere {event : Deployment.Event} {next : Deployment}
    (elsewhere : site.Elsewhere event)
    (stepped : Deployment.machine.step site.deployment event = some next) :
    next.threads = site.deployment.threads := by
  cases event with
  | work thread position => exact threads_of_unread elsewhere stepped
  | report thread settlement | fail thread | restart thread => cases elsewhere
  | _ => exact funext (fun _ => (Deployment.step_transition stepped).threads_of_ne nofun)

private theorem Tended.deploy (tended : Tended dataLocal site) {deployment : Deployment}
    (linked : Linked { site with deployment := deployment })
    (threads : ∀ thread message, (deployment.threads thread).running = some message →
      (site.deployment.threads thread).running = some message) :
    Tended dataLocal { site with deployment := deployment } :=
  { linked := linked
    busy := tended.busy
    held := fun thread message running =>
      tended.held thread message (threads thread message running)
    tiles := tended.tiles
    results := tended.results }

private theorem Tended.called (tended : Tended dataLocal site)
    {call : SkipIfExists.Event EchoWorkerMessage}
    {workers : SkipIfExists.State EchoWorkerMessage String GdalCall}
    (linked : Linked { site with workers := workers })
    (called : (workerJob dataLocal).machine.step site.workers call = some workers)
    (kind : call = .check call.execution ∨ call = .call call.execution) :
    Tended dataLocal { site with workers := workers } := by
  have moved := SkipIfExists.step_transition called
  have lasting : SkipIfExists.Lasting site.workers call := by
    rcases kind with same | same <;> rw [same] <;> trivial
  exact
    { linked := linked
      busy := fun other message given => tended.busy other message
        ((moved.message?_of_check kind other).symm.trans given)
      held := tended.held
      tiles := moved.tended lasting tended.tiles
      results := tended.results }

private theorem Tended.began (tended : Tended dataLocal site) {thread position execution : ℕ}
    {message : EchoWorkerMessage} {deployment : Deployment}
    {workers : SkipIfExists.State EchoWorkerMessage String GdalCall}
    (found : site.messageAt .worker workerMessage.read position = some message)
    (stepped : Deployment.machine.step site.deployment (.work thread position) = some deployment)
    (called : (workerJob dataLocal).machine.step site.workers (.deliver execution message) =
      some workers) :
    Tended dataLocal ({ site with deployment := deployment, workers := workers }.setExecution
      thread (some execution)) := by
  have moved := SkipIfExists.step_transition called
  obtain ⟨⟨free, _⟩, _⟩ := Option.ite_none_right_eq_some.mp stepped
  have unassigned : site.executions thread = none := by
    cases current : site.executions thread with
    | none => rfl
    | some mine =>
        obtain ⟨own, running, _⟩ := tended.linked.running thread mine current
        cases free.symm.trans running
  refine
    { linked := tended.linked.begin found stepped called
      busy := ?_
      held := ?_
      tiles := moved.tended trivial tended.tiles
      results := tended.results }
  · intro other own given
    by_cases same : other = execution
    · subst same
      exact ⟨thread, Function.update_self _ _ _⟩
    · change (workers.phases other).message? = some own at given
      rw [moved.phases_of_ne same] at given
      obtain ⟨mine, current⟩ := tended.busy other own given
      refine ⟨mine, (Function.update_of_ne ?_ _ _).trans current⟩
      rintro rfl
      cases unassigned.symm.trans current
  · intro other own running
    by_cases same : other = thread
    · subst same
      exact ⟨execution, Function.update_self _ _ _⟩
    · have before : (site.deployment.threads other).running = some own := by
        rw [← (Deployment.step_transition stepped).threads_of_ne]
        · exact running
        · intro equal
          exact same (Option.some.inj equal).symm
      obtain ⟨mine, current⟩ := tended.held other own before
      exact ⟨mine, (Function.update_of_ne same _ _).trans current⟩

private theorem Tended.ended (tended : Tended dataLocal site) {inner : Deployment.Event}
    {deployment : Deployment} {thread execution : ℕ} {ending : SkipIfExists.Event EchoWorkerMessage}
    {workers : SkipIfExists.State EchoWorkerMessage String GdalCall}
    (current : site.executions thread = some execution) (about : thread? inner = some thread)
    (stepped : Deployment.machine.step site.deployment inner = some deployment)
    (called : (workerJob dataLocal).machine.step site.workers ending = some workers)
    (ends : ending = .report execution ∨ ending = .crash execution)
    (lasting : SkipIfExists.Lasting site.workers ending)
    (free : (deployment.threads thread).running = none) :
    Tended dataLocal ({ site with deployment := deployment, workers := workers }.setExecution
      thread none) := by
  have moved := SkipIfExists.step_transition called
  have own : ending.execution = execution := by
    rcases ends with rfl | rfl <;> rfl
  have closed : workers.phases execution = .ended := by
    rcases ends with rfl | rfl
    · cases moved with
      | reported phase => exact Function.update_self _ _ _
    · cases moved with
      | crashed => exact Function.update_self _ _ _
  refine
    { linked := tended.linked.endExecution current about stepped called own
      busy := ?_
      held := ?_
      tiles := moved.tended lasting tended.tiles
      results := tended.results }
  · intro other message given
    have different : other ≠ execution := by
      rintro rfl
      change (workers.phases other).message? = some message at given
      rw [closed] at given
      cases given
    change (workers.phases other).message? = some message at given
    rw [moved.phases_of_ne (own.symm ▸ different)] at given
    obtain ⟨mine, before⟩ := tended.busy other message given
    refine ⟨mine, (Function.update_of_ne ?_ _ _).trans before⟩
    rintro rfl
    exact different (Option.some.inj (before.symm.trans current))
  · intro other message running
    have different : other ≠ thread := by
      rintro rfl
      exact absurd (running.symm.trans free) (Option.some_ne_none message)
    have before : (site.deployment.threads other).running = some message := by
      rw [← (Deployment.step_transition stepped).threads_of_ne]
      · exact running
      · intro same
        exact different (Option.some.inj (same.symm.trans about))
    obtain ⟨mine, assigned⟩ := tended.held other message before
    exact ⟨mine, (Function.update_of_ne different _ _).trans assigned⟩

private theorem lasting_of_ending {thread execution : ℕ} {ending : Deployment.Event}
    (stepped : (machine dataLocal).step site event = some next)
    (own : event.deployment? = some ending)
    (ends : ending = .fail thread ∨ ending = .restart thread)
    (current : site.executions thread = some execution) (lasting : site.Lasting event) :
    SkipIfExists.Lasting site.workers (.crash execution) := by
  cases event with
  | deploy inner =>
      obtain ⟨elsewhere, _⟩ := Option.ite_none_right_eq_some.mp stepped
      cases own
      rcases ends with rfl | rfl <;> cases elsewhere
  | fail other | restart other =>
      cases own
      rcases ends with same | same <;> cases same
      exact lasting execution current
  | _ => rcases ends with rfl | rfl <;> cases own

theorem Tended.step (tended : Tended dataLocal site) (lasting : site.Lasting event)
    (stepped : (machine dataLocal).step site event = some next) : Tended dataLocal next := by
  have transition := step_transition stepped
  have linked := transition.linked tended.linked
  cases transition with
  | deployed elsewhere inside =>
      apply tended.deploy linked
      intro thread message running
      rw [← threads_of_elsewhere elsewhere inside]
      exact running
  | began found inside called => exact tended.began found inside called
  | checked current called => exact tended.called linked called (Or.inl rfl)
  | rendered current called => exact tended.called linked called (Or.inr rfl)
  | reported current inside called =>
      exact tended.ended current rfl inside called (Or.inl rfl) trivial
        (Deployment.running_of_report inside).2
  | crashed own ends current inside called =>
      exact tended.ended current (thread?_of_ending ends) inside called (Or.inr rfl)
        (lasting_of_ending stepped own ends current lasting)
        (Deployment.running_of_ending ends inside)
  | @stopped _ thread _ _ own ends current inside =>
      apply tended.deploy linked
      intro other message running
      rw [← (Deployment.step_transition inside).threads_of_ne]
      · exact running
      · intro about
        obtain rfl : thread = other :=
          Option.some.inj ((thread?_of_ending ends).symm.trans about)
        cases (Deployment.running_of_ending ends inside).symm.trans running
  | received found called | checkedResult called | built called =>
      exact
        { linked := linked
          busy := tended.busy
          held := tended.held
          tiles := tended.tiles
          results := (SkipIfExists.step_transition called).tended trivial tended.results }
  | merged found ready inside called =>
      refine
        { linked := linked
          busy := tended.busy
          held := ?_
          tiles := tended.tiles
          results := (SkipIfExists.step_transition called).tended trivial tended.results }
      intro thread message running
      apply tended.held thread message
      rw [← (Deployment.step_transition inside).threads_of_ne nofun]
      exact running
  | mergeFailed called =>
      exact
        { linked := linked
          busy := tended.busy
          held := tended.held
          tiles := tended.tiles
          results := (SkipIfExists.step_transition called).tended lasting tended.results }

theorem Tended.of_runs {events : List Event} (tended : Tended dataLocal site)
    (lasting : (machine dataLocal).EveryStep Lasting site events)
    (reached : (machine dataLocal).Runs site events next) : Tended dataLocal next :=
  reached.invariant_of_everyStep (fun _ _ _ holds lasts stepped => holds.step lasts stepped)
    tended lasting

def Settled (site : Site) (execution : ℕ) : Prop :=
  ∀ message, (site.workers.phases execution).message? = some message →
    site.workers.phases execution = .ready message

/-- The part of the services in a run is that threads give their messages back. -/
def GivesBack (events : List Event) : Prop :=
  ∀ event ∈ deployed events, ∃ thread, event = .fail thread

private theorem Tended.exists_settled_one (tended : Tended dataLocal site) {execution : ℕ}
    (unsettled : ¬site.Settled execution) :
    ∃ events after, (machine dataLocal).Walks (Intact dataLocal) site events after ∧
      GivesBack events ∧ Tended dataLocal after ∧ after.Settled execution ∧
      ∀ other, other ≠ execution → site.Settled other → after.Settled other := by
  unfold Settled at unsettled
  push Not at unsettled
  obtain ⟨message, given, _⟩ := unsettled
  obtain ⟨thread, current⟩ := tended.busy execution message given
  by_cases filling : (site.workers.phases execution).Filling
  · obtain ⟨own, left, phase⟩ := (SkipIfExists.Phase.filling_iff _).mp filling
    have finishes : SkipIfExists.Finishes (workerJob dataLocal) execution own site.workers :=
      SkipIfExists.finishes_of_filling phase
    obtain ⟨count, workers, walk, completes⟩ := finishes
    have works : ∀ event ∈ List.replicate count (SkipIfExists.Event.call execution :
        SkipIfExists.Event EchoWorkerMessage), Works execution event :=
      fun event member => Or.inr (List.eq_of_mem_replicate member)
    have whole := walk_tile site current works walk
    refine ⟨_, _, whole, ?_, ?_, ?_, ?_⟩
    · unfold GivesBack
      rw [deployed_tileEvents]
      exact List.forall_mem_nil _
    · have lasting : ∀ event ∈ (List.replicate count (.call execution)).map (tileEvent thread),
          ∀ state : Site, state.Lasting event := by
        intro event member state
        obtain ⟨inner, listed, rfl⟩ := List.mem_map.mp member
        rw [List.eq_of_mem_replicate listed]
        trivial
      exact tended.of_runs ((machine dataLocal).everyStep_of_forall site lasting) whole.runs
    · intro other same
      change (workers.phases execution).message? = some other at same
      change workers.phases execution = .ready other
      rw [completes.ready] at same ⊢
      cases same
      rfl
    · intro other different settled
      unfold Settled
      change ∀ message, (workers.phases other).message? = _ → workers.phases other = _
      rw [completes.phases other different]
      exact settled
  · have crashed : SkipIfExists.Transition (workerJob dataLocal) site.workers
      (.crash execution) _ := .crashed
    have failed : Deployment.machine.step site.deployment (.fail thread) =
        some (site.deployment.fail thread) := rfl
    have taken : (machine dataLocal).step site (.fail thread) =
        site.endExecution dataLocal thread (.crash execution) (.fail thread) := by
      change site.crash dataLocal thread (.fail thread) = _
      unfold crash
      rw [current]
    rw [endExecution_of_step failed crashed.step] at taken
    have lasting : site.Lasting (.fail thread) := by
      intro other assigned
      obtain rfl := Option.some.inj (current.symm.trans assigned)
      exact filling
    refine ⟨[.fail thread], _, .single trivial taken, ?_, tended.step lasting taken, ?_, ?_⟩
    · intro event member
      exact ⟨thread, List.mem_singleton.mp member⟩
    · intro other same
      change (Function.update site.workers.phases execution .ended execution).message? = _ at same
      rw [Function.update_self] at same
      cases same
    · intro other different settled
      unfold Settled
      change ∀ message, (Function.update site.workers.phases execution .ended other).message? = _ →
        Function.update site.workers.phases execution .ended other = _
      rw [Function.update_of_ne different]
      exact settled

private theorem Tended.exists_settled (tended : Tended dataLocal site) :
    ∃ events after, (machine dataLocal).Walks (Intact dataLocal) site events after ∧
      GivesBack events ∧ Tended dataLocal after ∧ ∀ execution, after.Settled execution := by
  obtain ⟨bound, room⟩ := tended.tiles.room
  have above : ∀ execution, bound ≤ execution → site.Settled execution := by
    intro execution beyond message given
    rw [room execution beyond] at given
    cases given
  clear room
  induction bound generalizing site with
  | zero =>
      exact ⟨[], site, .refl site, List.forall_mem_nil _, tended,
        fun execution => above execution (Nat.zero_le execution)⟩
  | succ bound ih =>
      by_cases settled : site.Settled bound
      · apply ih tended
        intro execution beyond
        rcases Nat.eq_or_lt_of_le beyond with rfl | more
        · exact settled
        · exact above execution more
      · obtain ⟨first, middle, toMiddle, back, middleTended, own, others⟩ :=
          tended.exists_settled_one settled
        obtain ⟨second, after, onward, backAgain, afterTended, all⟩ := ih middleTended (by
          intro execution beyond
          rcases Nat.eq_or_lt_of_le beyond with rfl | more
          · exact own
          · exact others execution more.ne' (above execution more))
        refine ⟨first ++ second, after, toMiddle.trans onward, ?_, afterTended, all⟩
        unfold GivesBack deployed
        rw [List.filterMap_append]
        exact List.forall_mem_append.mpr ⟨back, backAgain⟩

private theorem Tended.exists_rested (tended : Tended dataLocal site) :
    ∃ events after, (machine dataLocal).Walks (Intact dataLocal) site events after ∧
      GivesBack events ∧ Rested after := by
  obtain ⟨first, middle, toMiddle, back, middleTended, settled⟩ := tended.exists_settled
  obtain ⟨calls, mergers, called, walk, tidy⟩ := middleTended.results.exists_tidy
  have onward : (machine dataLocal).Walks (Intact dataLocal) middle
      (calls.map (fun event => .callResult event.execution))
      { middle with mergers := mergers } := by
    refine walk.map (fun mergers => { middle with mergers := mergers })
      (fun event => Event.callResult event.execution) ?_ called
    intro state event next own intact stepped
    rw [own] at intact stepped
    exact ⟨Option.map_eq_some_iff.mpr ⟨next, stepped, rfl⟩, intact⟩
  refine ⟨first ++ calls.map (fun event => .callResult event.execution), _,
    toMiddle.trans onward, ?_, ?_⟩
  · unfold GivesBack deployed
    have none : (calls.map (fun event => Event.callResult event.execution)).filterMap
        Event.deployment? = [] := by
      apply List.filterMap_eq_nil_iff.mpr
      intro event member
      obtain ⟨inner, _, rfl⟩ := List.mem_map.mp member
      rfl
    rw [List.filterMap_append, none, List.append_nil]
    exact back
  · refine
      { linked := ⟨middleTended.linked.running, middleTended.linked.distinct⟩
        tiles := middleTended.tiles.tidy ?_
        results := tidy
        ready := ?_ }
    · intro execution filling
      obtain ⟨message, left, phase⟩ := (SkipIfExists.Phase.filling_iff _).mp filling
      have ready := settled execution message (by rw [phase]; rfl)
      cases phase.symm.trans ready
    · intro thread message running
      obtain ⟨execution, current⟩ := middleTended.held thread message running
      obtain ⟨own, same, given⟩ := middleTended.linked.running thread execution current
      obtain rfl := Option.some.inj (same.symm.trans running)
      exact ⟨execution, current, settled execution own given⟩

private theorem requestsWhenConnected_append {past following : List Event}
    (every : (machine dataLocal).EveryStep (Deployed Deployment.RequestsWhenConnected) site past)
    (none : ∀ event ∈ deployed following, ∀ uuid body, event ≠ .post uuid body) :
    (machine dataLocal).EveryStep (Deployed Deployment.RequestsWhenConnected) site
      (past ++ following) := by
  have all : ∀ event ∈ following, ∀ state : Site,
      state.Deployed Deployment.RequestsWhenConnected event := by
    intro event member state inner part accepted
    have listed : inner ∈ deployed following := List.mem_filterMap.mpr ⟨event, member, part⟩
    cases inner with
    | post uuid body => exact absurd rfl (none _ listed uuid body)
    | _ => cases accepted
  exact (Machine.everyStep_append _ _ _ _ _).mpr
    ⟨every, fun middle _ => (machine dataLocal).everyStep_of_forall middle all⟩

/-- After a healthy run in which no program stopped between laying its file down and finishing
it, all requests that were accepted so far can still end with their images. -/
theorem accepted_requests_can_be_rendered {past : List Event}
    (uuids : DrawsUuids (deployed past)) (healthy : ∀ event ∈ deployed past, event.Healthy)
    (every : (machine dataLocal).EveryStep (Deployed Deployment.RequestsWhenConnected) initial
      past)
    (intact : (machine dataLocal).EveryStep (Intact dataLocal) initial past)
    (lasting : (machine dataLocal).EveryStep Lasting initial past)
    (reached : (machine dataLocal).Runs initial past site) :
    ∃ following after, (machine dataLocal).Walks (Intact dataLocal) site following after ∧
      (∀ event ∈ deployed following, ∀ uuid body, event ≠ .post uuid body) ∧
      after.deployment.Quiescent ∧
      ∀ message, Deployment.AcceptedIn (deployed past) message →
        ∃ geoTransform, EchoService.geoTransformOf message = .ok geoTransform ∧
          ∀ i j : ℤ, 0 ≤ i → i < message.imageSizeX → 0 ≤ j → j < message.imageSizeY →
            ShowsOnce dataLocal after message geoTransform i j := by
  obtain ⟨first, rested, toRested, back, rest⟩ :=
    (tended_initial.of_runs lasting reached).exists_rested
  have sane := Deployment.sane_of_runs (deployed_runs reached)
    (Deployment.deliverable_of_runs healthy (deployed_runs reached))
  have leads : Deployment.machine.Leads Deployment.Event.Closing site.deployment
      rested.deployment := by
    refine ⟨deployed first, ?_, deployed_runs toRested.runs⟩
    intro event member
    obtain ⟨thread, rfl⟩ := back event member
    trivial
  obtain ⟨second, next, unposted, onward, quiescent⟩ := (sane.leads leads).drains
  obtain ⟨whole, after, walk, own, _, rfl⟩ := rest.lifts_runs dataLocal onward
  have following := toRested.trans walk
  have none : ∀ event ∈ deployed (first ++ whole), ∀ uuid body, event ≠ .post uuid body := by
    unfold deployed at own ⊢
    rw [List.filterMap_append, own]
    intro event member uuid body posted
    rcases List.mem_append.mp member with earlier | later
    · obtain ⟨thread, failed⟩ := back event earlier
      cases failed.symm.trans posted
    · exact unposted event later uuid body posted
  have long := (Machine.runs_append _ _ _ _ _).mpr ⟨site, reached, following.runs⟩
  obtain ⟨_, accounted, filed⟩ := accounted_of_runs (requestsWhenConnected_append every none)
    ((Machine.everyStep_append _ _ _ _ _).mpr ⟨intact, fun middle toMiddle =>
      toMiddle.unique reached ▸ following.every⟩) long
  have split : deployed (past ++ (first ++ whole)) =
      deployed past ++ deployed (first ++ whole) := List.filterMap_append
  rw [split] at accounted
  refine ⟨first ++ whole, after, following, none, quiescent, ?_⟩
  intro message before
  have requested := (accounted.accepted message).mpr
    ((Deployment.acceptedIn_append _ _ _).mpr (Or.inl before))
  have drawn : DrawsUuids (deployed past ++ deployed (first ++ whole)) := by
    intro uuid body posted
    rcases List.mem_append.mp posted with earlier | later
    · exact uuids uuid body earlier
    · exact absurd rfl (none _ later uuid body)
  exact (filed.rendered accounted drawn quiescent requested).showsOnce

namespace Sample

def unfinished : List Event := restarted.take 20

private theorem everyStep_unfinished {condition : Site → Event → Prop}
    (every : (machine true).EveryStep condition initial restarted) :
    (machine true).EveryStep condition initial unfinished := by
  rw [← List.take_append_drop 20 restarted] at every
  exact every.of_append

private theorem mem_deployed_restarted {event : Deployment.Event}
    (member : event ∈ deployed unfinished) :
    event ∈ deployed restarted := by
  obtain ⟨own, listed, part⟩ := List.mem_filterMap.mp member
  exact List.mem_filterMap.mpr ⟨own, List.mem_of_mem_take listed, part⟩

private theorem acceptedIn_unfinished : Deployment.AcceptedIn
    (deployed unfinished) startMessage := by
  refine ⟨UUID.toString 0 1, Controller.ProcessingController.bodyOf startMessage,
    Controller.ProcessingController.entityModel { id := UUID.toString 0 1 }, ?_, ?_⟩
  · simp [unfinished, deployed, restarted, Event.deployment?]
  · exact (Controller.ProcessingController.echo_eq_ok_iff _ _ _ _).mpr
      ⟨rfl, by decide +kernel, rfl, rfl⟩

private theorem runs_unfinished :
    ∃ site, (machine true).Runs initial unfinished site ∧
      ¬SkipIfExists.Tidy site.workers := by
  have observed : ((machine true).run initial unfinished).map
      (fun site => site.workers.history (tileURL (UUID.toString 0 1) (UUID.toString 0 2))) =
      some [.laidDown 1] := by
    decide +kernel
  obtain ⟨site, reached, laidDown⟩ := Option.map_eq_some_iff.mp observed
  refine ⟨site, reached, ?_⟩
  intro tidy
  rcases tidy.products (tileURL (UUID.toString 0 1) (UUID.toString 0 2)) with absent | finished
  · rw [laidDown] at absent
    cases absent
  · rw [laidDown] at finished
    exact absurd finished (by decide)

end Sample

theorem accepted_requests_can_be_rendered_unfinished :
    ∃ site, (machine true).Runs initial Sample.unfinished site ∧
      ¬SkipIfExists.Tidy site.workers ∧
      ∃ following after, (machine true).Walks (Intact true) site following after ∧
        after.deployment.Quiescent ∧
        ∃ geoTransform, EchoService.geoTransformOf Sample.startMessage = .ok geoTransform ∧
          ShowsOnce true after Sample.startMessage geoTransform 0 0 := by
  obtain ⟨site, reached, untidy⟩ := Sample.runs_unfinished
  obtain ⟨following, after, walk, _, quiescent, rendered⟩ :=
    accepted_requests_can_be_rendered
      (fun uuid body posted =>
        Sample.uuids_restarted uuid body (Sample.mem_deployed_restarted posted))
      (by decide +kernel) (Sample.everyStep_unfinished Sample.connected_restarted)
      (Sample.everyStep_unfinished Sample.intact_restarted) (by decide +kernel) reached
  obtain ⟨geoTransform, computed, shows⟩ := rendered _ Sample.acceptedIn_unfinished
  exact ⟨site, reached, untidy, following, after, walk, quiescent, geoTransform, computed,
    shows 0 0 (le_refl 0) (by decide) (le_refl 0) (by decide)⟩

end Site

end EchoProcessing
