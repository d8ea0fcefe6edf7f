/-
What holds in every run of the platform, and what is done there once and for all.

A processing that has left INIT stays there no longer, and the tracker keeps its rows. The
rows of the tracker and the callbacks of the merger go back to requests and to merges.
-/

import EchoProcessing.Orchestrator.Provenance
import EchoProcessing.Platform.RoundTrip
import EchoProcessing.Tracking.Estimate
import EchoProcessing.Tracking.Redelivery

namespace EchoProcessing

open Orchestrator

namespace Orchestrator

open EchoWorkerRepository

def Database.Started (db : Database) (processingId : String) : Prop :=
  ofProcessing db processingId ≠ [] ∧ ∀ row ∈ ofProcessing db processingId, row.state ≠ .init

private theorem Database.Extends.ofProcessing_ne_nil {db next : Database} (grown : db.Extends next)
    {processingId : String} (present : ofProcessing db processingId ≠ []) :
    ofProcessing next processingId ≠ [] := by
  obtain ⟨row, member⟩ := List.exists_mem_of_ne_nil _ present
  obtain ⟨rowMember, rowProcessing⟩ := (mem_ofProcessing _ _ _).mp member
  obtain ⟨other, otherMember, _, sameProcessing⟩ :=
    row_of_copies (grown.copies row (Database.copies_of_mem rowMember))
  exact List.ne_nil_of_mem ((mem_ofProcessing _ _ other).mpr
    ⟨otherMember, sameProcessing.trans rowProcessing⟩)

theorem mergeMessages_of_step {system next : System} {event : Event}
    (stepped : delivery.step system event = some next) {merge : EchoMergeMessage}
    (member : merge ∈ system.mergeMessages) : merge ∈ next.mergeMessages := by
  cases step_transition stepped with
  | callbackCommitted published found => exact List.mem_append_left _ member
  | callbackRolledBack published => exact List.mem_append_left _ member
  | _ => exact member

theorem Transition.started {system next : System} {event : Event}
    (transition : Transition system event next) (consistent : Consistent system)
    {processingId : String} (started : system.db.Started processingId) :
    next.db.Started processingId := by
  refine ⟨(transition.extends consistent).ofProcessing_ne_nil started.1, ?_⟩
  intro row member initial
  have old := transition.keepsStarted consistent processingId started.1 row member initial
  exact started.2 row old initial

end Orchestrator

namespace Tracking

theorem free_of_receiveStartMessage {trackers next : Trackers} {payload : EchoStartMessage}
    {now : Instant} (returned : Listener.receiveStartMessage trackers payload now = .ok next) :
    trackers.find? payload.processingId = none := by
  change TrackerRepository.save trackers
    (TrackerService.newTracker payload.processingId now) = .ok next at returned
  cases found : trackers.find? payload.processingId with
  | none => rfl
  | some old =>
      rw [save_of_taken found] at returned
      cases returned

theorem find?_of_receiveStartMessage {trackers next : Trackers} {payload : EchoStartMessage}
    {now : Instant} (returned : Listener.receiveStartMessage trackers payload now = .ok next) :
    next.find? payload.processingId ≠ none := by
  change TrackerRepository.save trackers
    (TrackerService.newTracker payload.processingId now) = .ok next at returned
  have free : trackers.find?
      (TrackerService.newTracker payload.processingId now).processingId = none :=
    free_of_receiveStartMessage returned
  obtain ⟨stored, saved, rows⟩ := save_of_free free
  rw [saved] at returned
  cases returned
  rw [(rows payload.processingId).trans (if_pos rfl)]
  exact nofun

end Tracking

namespace Platform

/-- A processing was requested before the tracker has a row for it. -/
def TracksRequests (platform : Platform) : Prop :=
  ∀ processingId, platform.trackers.find? processingId ≠ none →
    ∃ message ∈ platform.startMessages, message.processingId = processingId

private theorem Transition.tracksRequests {platform next : Platform} {event : Event}
    (transition : Transition platform event next) (tracks : TracksRequests platform) :
    TracksRequests next := by
  intro processingId tracked
  cases transition with
  | @requested message fresh =>
      obtain ⟨earlier, member, same⟩ := tracks processingId tracked
      exact ⟨earlier, List.mem_append_left _ member, same⟩
  | @tracked delivery offered =>
      change (Tracking.handle platform.trackers delivery).find? processingId ≠ none at tracked
      obtain ⟨row, found⟩ := Option.ne_none_iff_exists'.mp tracked
      rw [Tracking.find?_handle] at found
      split at found
      · rename_i own
        rcases Tracking.settle_cases found with
          old | ⟨payload, start, _⟩ | ⟨_, _, old, _, _, _, before, _⟩ | ⟨_, old, _, before, _⟩
        · exact tracks processingId (Option.ne_none_iff_exists'.mpr ⟨row, old⟩)
        · rw [start] at offered own
          obtain ⟨message, member, rfl⟩ := List.mem_map.mp offered
          exact ⟨message, member, own⟩
        · exact tracks processingId (Option.ne_none_iff_exists'.mpr ⟨old, before⟩)
        · exact tracks processingId (Option.ne_none_iff_exists'.mpr ⟨old, before⟩)
      · exact tracks processingId (Option.ne_none_iff_exists'.mpr ⟨row, found⟩)
  | _ => exact tracks processingId tracked

theorem Sound.positiveTotals {platform : Platform} (sound : Sound platform)
    {delivery : Tracking.Delivery} (offered : platform.Offered delivery.message) :
    Tracking.PositiveTotals delivery := by
  intro payload report totalWorkers total
  rw [report] at offered
  obtain ⟨callback, published, rfl⟩ := List.mem_map.mp offered
  obtain ⟨source, sourceMember, rfl⟩ := sound.owned.consistent.callbackMessages callback published
  obtain ⟨message, _, _, grid, counted⟩ := sound.counted.totals source sourceMember
  cases total
  rw [counted]
  exact_mod_cast grid.one_le_tileCount

/-- The bar of each row stands between zero and its cap. -/
def Ordered (platform : Platform) : Prop :=
  ∀ processingId row, platform.trackers.find? processingId = some row → row.Ordered

theorem Transition.ordered {platform next : Platform} {event : Event}
    (transition : Transition platform event next) (sound : Sound platform)
    (ordered : Ordered platform) : Ordered next := by
  cases transition with
  | @tracked delivery offered =>
      intro processingId row found
      change (Tracking.handle platform.trackers delivery).find? processingId = some row at found
      rw [Tracking.find?_handle] at found
      split at found
      · exact Tracking.ordered_of_settle (sound.positiveTotals offered) (ordered processingId) found
      · exact ordered processingId row found
  | _ => exact ordered

/-- What the merger reports are published merges. -/
def ReportsMerges (platform : Platform) : Prop :=
  ∀ callback ∈ platform.mergeCallbacks, ∃ merge ∈ platform.orchestrator.mergeMessages,
    callback = Image.mergeCallback merge

private theorem Transition.reportsMerges {platform next : Platform} {event : Event}
    (transition : Transition platform event next) (reports : ReportsMerges platform) :
    ReportsMerges next := by
  cases transition with
  | orchestrated accepted stepped =>
      intro callback member
      obtain ⟨merge, published, same⟩ := reports callback member
      exact ⟨merge, mergeMessages_of_step stepped published, same⟩
  | @merged message published =>
      intro callback member
      rcases List.mem_append.mp member with earlier | new
      · exact reports callback earlier
      · exact ⟨message, published, List.mem_singleton.mp new⟩
  | _ => exact reports

structure Steady (platform : Platform) : Prop where
  sound : Sound platform
  remaining : ∀ handler,
    (platform.orchestrator.handlers handler).Remaining platform.orchestrator.db
  merged : Merged platform.orchestrator
  traced : Traced platform.startMessages platform.orchestrator
  tracked : TracksRequests platform
  ordered : Ordered platform
  reports : ReportsMerges platform

theorem steady_initial : Steady initial :=
  { sound := sound_initial
    remaining := fun _ => trivial
    merged := merged_initial
    traced := traced_initial
    tracked := fun _ impossible => absurd rfl impossible
    ordered := fun _ _ impossible => by cases impossible
    reports := fun _ impossible => by cases impossible }

theorem Transition.traced {platform next : Platform} {event : Event}
    (transition : Transition platform event next) (sound : Sound platform)
    (traced : Traced platform.startMessages platform.orchestrator) :
    Traced next.startMessages next.orchestrator := by
  rcases transition.orchestrator_step sound.threads with same | ⟨inner, stepped, _, starts⟩
  · rw [same]
    cases transition with
    | requested fresh => exact traced.request _
    | _ => exact traced
  · rw [starts]
    exact (Orchestrator.step_transition stepped).traced sound.owned sound.counted stepped traced

theorem Transition.steady {platform next : Platform} {event : Event}
    (transition : Transition platform event next) (steady : Steady platform) : Steady next := by
  have sound := transition.sound steady.sound
  have traced := transition.traced steady.sound steady.traced
  have tracked := transition.tracksRequests steady.tracked
  have ordered := transition.ordered steady.sound steady.ordered
  have reports := transition.reportsMerges steady.reports
  rcases transition.orchestrator_step steady.sound.threads with same | ⟨inner, stepped, _, _⟩
  · exact
      { sound := sound
        remaining := same ▸ steady.remaining
        merged := same ▸ steady.merged
        traced := traced
        tracked := tracked
        ordered := ordered
        reports := reports }
  · have moved := Orchestrator.step_transition stepped
    exact
      { sound := sound
        remaining := moved.remaining steady.sound.owned steady.sound.counted steady.remaining
        merged := moved.merged steady.sound.owned stepped steady.merged
        traced := traced
        tracked := tracked
        ordered := ordered
        reports := reports }

theorem steady_of_runs {events : List Event} {platform image : Platform}
    (run : machine.Runs platform events image) (steady : Steady platform) : Steady image :=
  run.invariant (fun _ _ _ holds stepped => (step_transition stepped).steady holds) steady

theorem started_of_runs {events : List Event} {platform image : Platform}
    (run : machine.Runs platform events image) (steady : Steady platform) {processingId : String}
    (started : platform.orchestrator.db.Started processingId) :
    image.orchestrator.db.Started processingId := by
  have preserved : ∀ state event next,
      (Steady state ∧ state.orchestrator.db.Started processingId) →
      machine.step state event = some next →
      (Steady next ∧ next.orchestrator.db.Started processingId) := by
    rintro state event next ⟨holds, before⟩ stepped
    have transition := step_transition stepped
    refine ⟨transition.steady holds, ?_⟩
    rcases transition.orchestrator_step holds.sound.threads with same | ⟨inner, moved, _, _⟩
    · rw [same]
      exact before
    · exact (Orchestrator.step_transition moved).started holds.sound.owned.consistent before
  exact (run.invariant preserved ⟨steady, started⟩).2

theorem tracked_of_runs {events : List Event} {platform image : Platform}
    (run : machine.Runs platform events image) {processingId : String}
    (tracked : platform.trackers.find? processingId ≠ none) :
    image.trackers.find? processingId ≠ none := by
  have preserved : ∀ state event next, state.trackers.find? processingId ≠ none →
      machine.step state event = some next → next.trackers.find? processingId ≠ none := by
    intro state event next before stepped
    cases step_transition stepped with
    | tracked offered => exact Tracking.handle_keeps_row before _
    | _ => exact before
  exact run.invariant preserved tracked

end Platform

end EchoProcessing
