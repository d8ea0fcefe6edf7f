/-
The files that the messages name are finished.

This holds in the runs in which no program meets a file that is only laid down, and none
lays a file down a second time. A result is then built from finished tiles, one for each
cell of the grid, and each tile with the size and the place of its cell.
-/

import EchoProcessing.Platform.Files

namespace EchoProcessing

open Messaging Orchestrator Image

open SkipIfExists (Finished Orderly)

namespace Site

variable (dataLocal : Bool)

/-- The event leaves the files of the other executions as they are. -/
def Intact (site : Site) : Event → Prop
  | .checkTile thread => ∀ execution ∈ site.executions thread,
      SkipIfExists.Intact (workerJob dataLocal) site.workers (.check execution)
  | .callTile thread => ∀ execution ∈ site.executions thread,
      SkipIfExists.Intact (workerJob dataLocal) site.workers (.call execution)
  | .checkResult execution =>
      SkipIfExists.Intact (mergerJob dataLocal) site.mergers (.check execution)
  | .callResult execution =>
      SkipIfExists.Intact (mergerJob dataLocal) site.mergers (.call execution)
  | _ => True

instance Intact.decidable (site : Site) : (event : Event) → Decidable (site.Intact dataLocal event)
  | .checkTile thread => inferInstanceAs (Decidable (∀ execution ∈ site.executions thread,
      SkipIfExists.Intact (workerJob dataLocal) site.workers (.check execution)))
  | .callTile thread => inferInstanceAs (Decidable (∀ execution ∈ site.executions thread,
      SkipIfExists.Intact (workerJob dataLocal) site.workers (.call execution)))
  | .checkResult execution => SkipIfExists.Intact.decidable _ _ (.check execution)
  | .callResult execution => SkipIfExists.Intact.decidable _ _ (.call execution)
  | .deploy _ | .work _ _ _ | .report _ _ | .fail _ | .restart _ | .receiveMerge _ _
  | .merge _ _ _ | .failMerge _ => isTrue trivial

variable {dataLocal}

section Step

variable {site next : Site} {event : Event} {platform image : Platform}

theorem published_of_messageAt {α : Type}
    (refines : Deployment.Refines site.deployment platform) (codec : Json.Codec α)
    {name : QueueName} {position : ℕ} {message : α}
    (found : site.messageAt name codec.read position = some message) {messages : List α}
    (own : platform.bodies name.source = messages.map codec.write) : message ∈ messages := by
  obtain ⟨taken, takenEq, readable⟩ := Option.bind_eq_some_iff.mp found
  have published := refines.mem_bodies takenEq
  rw [own] at published
  exact (Deployment.mem_of_read codec published readable).1

theorem Transition.workers_step (transition : Transition dataLocal site event next)
    (intact : site.Intact dataLocal event)
    (refines : Deployment.Refines site.deployment platform) :
    next.workers = site.workers ∨ ∃ inner,
      (workerJob dataLocal).machine.step site.workers inner = some next.workers ∧
      SkipIfExists.Intact (workerJob dataLocal) site.workers inner ∧
      SkipIfExists.Gives (fun _ message => message ∈ platform.orchestrator.workerMessages)
        inner := by
  cases transition with
  | began found stepped called =>
      exact Or.inr ⟨_, called, trivial, published_of_messageAt refines _ found rfl⟩
  | checked current called => exact Or.inr ⟨_, called, intact _ current, trivial⟩
  | rendered current called => exact Or.inr ⟨_, called, intact _ current, trivial⟩
  | reported current stepped called => exact Or.inr ⟨_, called, trivial, trivial⟩
  | crashed own ends current stepped called => exact Or.inr ⟨_, called, trivial, trivial⟩
  | _ => exact Or.inl rfl

private theorem Transition.mergers_step (transition : Transition dataLocal site event next)
    (intact : site.Intact dataLocal event) (refines : Deployment.Refines site.deployment platform) :
    next.mergers = site.mergers ∨ ∃ inner,
      (mergerJob dataLocal).machine.step site.mergers inner = some next.mergers ∧
      SkipIfExists.Intact (mergerJob dataLocal) site.mergers inner ∧
      SkipIfExists.Gives (fun _ message => message ∈ platform.orchestrator.mergeMessages)
        inner := by
  cases transition with
  | received found called =>
      exact Or.inr ⟨_, called, trivial, published_of_messageAt refines _ found rfl⟩
  | checkedResult called => exact Or.inr ⟨_, called, intact, trivial⟩
  | built called => exact Or.inr ⟨_, called, intact, trivial⟩
  | merged found ready stepped called => exact Or.inr ⟨_, called, trivial, trivial⟩
  | mergeFailed called => exact Or.inr ⟨_, called, trivial, trivial⟩
  | _ => exact Or.inl rfl

/-- The tiles and the results are in order, and all that callbacks name is finished. -/
structure Filed (dataLocal : Bool) (site : Site) (platform : Platform) : Prop where
  linked : Linked site
  tiles : Orderly (workerJob dataLocal)
    (fun message => message ∈ platform.orchestrator.workerMessages) site.workers
  results : Orderly (mergerJob dataLocal)
    (fun message => message ∈ platform.orchestrator.mergeMessages) site.mergers
  callbacks : ∀ callback ∈ platform.orchestrator.callbackMessages,
    Finished (site.workers.history callback.imageURL)
  mergeCallbacks : ∀ callback ∈ platform.mergeCallbacks,
    Finished (site.mergers.history callback.imageURL)

private theorem filed_initial : Filed dataLocal initial Platform.initial :=
  { linked := linked_initial
    tiles := SkipIfExists.orderly_initial _ _
    results := SkipIfExists.orderly_initial _ _
    callbacks := fun _ member => by cases member
    mergeCallbacks := fun _ member => by cases member }

private theorem Transition.keeps_tile (transition : Transition dataLocal site event next)
    (intact : site.Intact dataLocal event)
    (refines : Deployment.Refines site.deployment platform) {location : String}
    (finished : Finished (site.workers.history location)) :
    Finished (next.workers.history location) := by
  rcases transition.workers_step intact refines with same | ⟨inner, called, own, _⟩
  · rw [same]
    exact finished
  · exact (SkipIfExists.step_transition called).keeps_finished own finished

private theorem Transition.keeps_result (transition : Transition dataLocal site event next)
    (intact : site.Intact dataLocal event)
    (refines : Deployment.Refines site.deployment platform) {location : String}
    (finished : Finished (site.mergers.history location)) :
    Finished (next.mergers.history location) := by
  rcases transition.mergers_step intact refines with same | ⟨inner, called, own, _⟩
  · rw [same]
    exact finished
  · exact (SkipIfExists.step_transition called).keeps_finished own finished

theorem Filed.files (filed : Filed dataLocal site platform)
    (transition : Transition dataLocal site event next) (intact : site.Intact dataLocal event)
    (refines : Deployment.Refines site.deployment platform) : Filed dataLocal next platform := by
  refine
    { linked := transition.linked filed.linked
      tiles := ?_
      results := ?_
      callbacks := fun callback member =>
        transition.keeps_tile intact refines (filed.callbacks callback member)
      mergeCallbacks := fun callback member =>
        transition.keeps_result intact refines (filed.mergeCallbacks callback member) }
  · rcases transition.workers_step intact refines with same | ⟨inner, called, own, gives⟩
    · rw [same]
      exact filed.tiles
    · exact (SkipIfExists.step_transition called).orderly own gives filed.tiles
  · rcases transition.mergers_step intact refines with same | ⟨inner, called, own, gives⟩
    · rw [same]
      exact filed.results
    · exact (SkipIfExists.step_transition called).orderly own gives filed.results

theorem Filed.tile_of_report (filed : Filed dataLocal site platform)
    (transition : Transition dataLocal site event next) {thread : ℕ}
    {settlement : Deployment.Settlement}
    (own : event.deployment? = some (.report thread settlement)) {message : EchoWorkerMessage}
    (running : (site.deployment.threads thread).running = some message) :
    Finished (site.workers.history (tileURL message.processingId message.workerId)) := by
  cases transition with
  | deployed elsewhere stepped =>
      cases own
      cases elsewhere
  | @reported _ _ execution _ _ current stepped called =>
      cases own
      obtain ⟨linkedMessage, linkedRunning, given⟩ := filed.linked.running thread execution current
      obtain rfl : linkedMessage = message := Option.some.inj (linkedRunning.symm.trans running)
      cases SkipIfExists.step_transition called with
      | @reported _ ready phase =>
          rw [phase] at given
          cases given
          exact filed.tiles.ready execution linkedMessage phase
  | crashed same ends current stepped called =>
      rw [own] at same
      cases same
      rcases ends with impossible | impossible <;> cases impossible
  | stopped same ends current stepped =>
      rw [own] at same
      cases same
      rcases ends with impossible | impossible <;> cases impossible
  | _ => cases own

theorem Filed.result_of_merge (filed : Filed dataLocal site platform)
    (transition : Transition dataLocal site event next) {position : ℕ}
    {settlement : Deployment.Settlement}
    (own : event.deployment? = some (.merge position settlement)) {message : EchoMergeMessage}
    (found : site.messageAt .merge mergeMessage.read position = some message) :
    Finished (site.mergers.history (resultURL message.processingId)) := by
  cases transition with
  | deployed elsewhere stepped =>
      cases own
      have absent : site.messageAt .merge mergeMessage.read position = none := elsewhere
      rw [found] at absent
      cases absent
  | @merged execution _ _ _ _ _ own_ ready stepped called =>
      cases own
      obtain rfl := Option.some.inj (own_.symm.trans found)
      exact filed.results.ready execution _ ready
  | crashed same ends current stepped called =>
      rw [own] at same
      cases same
      rcases ends with impossible | impossible <;> cases impossible
  | stopped same ends current stepped =>
      rw [own] at same
      cases same
      rcases ends with impossible | impossible <;> cases impossible
  | _ => cases own

theorem Filed.follow (filed : Filed dataLocal site platform)
    (transition : Transition dataLocal site event next) (intact : site.Intact dataLocal event)
    (refines : Deployment.Refines site.deployment platform) {inner : Deployment.Event}
    (own : event.deployment? = some inner)
    (follows : Deployment.Follows site.deployment next.deployment inner platform image) :
    Filed dataLocal next image := by
  obtain ⟨name, gone, key, sent, exchanges⟩ := follows.exchanges
  have kept := filed.files transition intact refines
  have grown : ∀ other body, body ∈ platform.bodies other → body ∈ image.bodies other :=
    fun other body old => (exchanges.bodies other body).mpr (Or.inl old)
  have workers : ∀ message ∈ platform.orchestrator.workerMessages,
      message ∈ image.orchestrator.workerMessages :=
    fun message member => (List.mem_map_of_injective workerMessage.write_injective).mp
      (grown .worker _ (List.mem_map_of_mem member))
  have merges : ∀ message ∈ platform.orchestrator.mergeMessages,
      message ∈ image.orchestrator.mergeMessages :=
    fun message member => (List.mem_map_of_injective mergeMessage.write_injective).mp
      (grown .merge _ (List.mem_map_of_mem member))
  refine
    { linked := kept.linked
      tiles := { kept.tiles with recorded := kept.tiles.recorded.mono workers }
      results := { kept.results with recorded := kept.results.recorded.mono merges }
      callbacks := ?_
      mergeCallbacks := ?_ }
  · intro callback member
    have published : WorkerCallback.message.write callback ∈ image.bodies .workerCallback :=
      List.mem_map_of_mem member
    rcases (exchanges.bodies _ _).mp published with old | ⟨rfl, new⟩
    · exact kept.callbacks callback
        ((List.mem_map_of_injective WorkerCallback.message.write_injective).mp old)
    · have reports := exchanges.reports _ new
      generalize written : WorkerCallback.message.write callback = body at reports
      cases reports with
      | worker running =>
          obtain rfl := WorkerCallback.message.write_injective written
          exact transition.keeps_tile intact refines (filed.tile_of_report transition own running)
      | other worker merger => exact absurd rfl worker
  · intro callback member
    have published : MergeCallback.message.write callback ∈ image.bodies .mergeCallback :=
      List.mem_map_of_mem member
    rcases (exchanges.bodies _ _).mp published with old | ⟨rfl, new⟩
    · exact kept.mergeCallbacks callback
        ((List.mem_map_of_injective MergeCallback.message.write_injective).mp old)
    · have reports := exchanges.reports _ new
      generalize written : MergeCallback.message.write callback = body at reports
      cases reports with
      | merger taken readable =>
          obtain rfl := MergeCallback.message.write_injective written
          have found : site.messageAt .merge mergeMessage.read _ = some _ :=
            Option.bind_eq_some_iff.mpr ⟨_, taken, readable⟩
          exact transition.keeps_result intact refines
            (filed.result_of_merge transition own found)
      | other worker merger => exact absurd rfl merger

end Step

def deployed (events : List Event) : List Deployment.Event :=
  events.filterMap Event.deployment?

def Deployed (condition : Deployment → Deployment.Event → Prop) (site : Site) (event : Event) :
    Prop :=
  ∀ inner ∈ event.deployment?, condition site.deployment inner

instance (condition : Deployment → Deployment.Event → Prop)
    [∀ deployment event, Decidable (condition deployment event)] (site : Site) (event : Event) :
    Decidable (site.Deployed condition event) :=
  inferInstanceAs (Decidable (∀ inner ∈ event.deployment?, condition site.deployment inner))

/-- A relation to the platform that the steps of the deployment keep, with the files. -/
theorem filed_of_runs (condition : Deployment → Deployment.Event → Prop)
    (related : List Deployment.Event → Deployment → Platform → Prop)
    (refines : ∀ {events deployment platform}, related events deployment platform →
      Deployment.Refines deployment platform)
    (stepped : ∀ {events deployment event next platform}, related events deployment platform →
      condition deployment event → Deployment.machine.step deployment event = some next →
      ∃ image, Deployment.Follows deployment next event platform image ∧
        related (events ++ [event]) next image)
    (initially : related [] .initial .initial) {events : List Event} {site : Site}
    (met : (machine dataLocal).EveryStep (Deployed condition) initial events)
    (intact : (machine dataLocal).EveryStep (Intact dataLocal) initial events)
    (reached : (machine dataLocal).Runs initial events site) :
    ∃ platform, related (deployed events) site.deployment platform ∧
      Filed dataLocal site platform := by
  induction events using List.reverseRecOn generalizing site with
  | nil =>
      obtain rfl := (Machine.runs_nil _ _ _).mp reached
      exact ⟨_, initially, filed_initial⟩
  | append_singleton events event ih =>
      obtain ⟨last, toLast, moved⟩ := (Machine.runs_snoc _ _ _ _ _).mp reached
      obtain ⟨platform, holds, filed⟩ := ih met.of_append intact.of_append toLast
      have transition := step_transition moved
      have own := intact.last toLast
      unfold deployed
      rw [List.filterMap_append]
      rcases transition.deployment_step with ⟨none, same⟩ | ⟨inner, some, inside⟩
      · refine ⟨platform, ?_, filed.files transition own (refines holds)⟩
        rw [List.filterMap_cons_none none, List.filterMap_nil, List.append_nil, same]
        exact holds
      · obtain ⟨image, follows, nextHolds⟩ := stepped holds (met.last toLast inner some) inside
        refine ⟨image, ?_, filed.follow transition own (refines holds) some follows⟩
        rw [List.filterMap_cons_some some, List.filterMap_nil]
        exact nextHolds

end Site

end EchoProcessing
