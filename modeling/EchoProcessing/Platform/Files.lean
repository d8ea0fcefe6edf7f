/-
The files behind the messages.

A worker renders the tile of its message and a merger builds the result of its own, unless
the file can be opened already. Such an execution lasts from the delivery of the message
to its callback or to its crash, and executions overlap freely with all other steps.
-/

import EchoProcessing.Library.WriteOnce
import EchoProcessing.Platform.Custody

namespace EchoProcessing

open Messaging Orchestrator Image

structure Site where
  deployment : Deployment
  workers : SkipIfExists.State EchoWorkerMessage String GdalCall
  mergers : SkipIfExists.State EchoMergeMessage String GdalCall
  /-- The execution that a worker thread is in. -/
  executions : ℕ → Option ℕ

namespace Site

def initial : Site :=
  { deployment := .initial
    workers := .initial
    mergers := .initial
    executions := fun _ => none }

inductive Event where
  /-- An event of the deployment in which no program takes part. -/
  | deploy (event : Deployment.Event)
  | work (thread position execution : ℕ)
  | checkTile (thread : ℕ)
  | callTile (thread : ℕ)
  | report (thread : ℕ) (settlement : Deployment.Settlement)
  | fail (thread : ℕ)
  | restart (thread : ℕ)
  | receiveMerge (execution position : ℕ)
  | checkResult (execution : ℕ)
  | callResult (execution : ℕ)
  | merge (execution position : ℕ) (settlement : Deployment.Settlement)
  /-- An execution of the merger ends before its callback; its message stays in the queue. -/
  | failMerge (execution : ℕ)

def Event.deployment? : Event → Option Deployment.Event
  | .deploy event => some event
  | .work thread position _ => some (.work thread position)
  | .report thread settlement => some (.report thread settlement)
  | .fail thread => some (.fail thread)
  | .restart thread => some (.restart thread)
  | .merge _ position settlement => some (.merge position settlement)
  | _ => none

/-! ### Steps -/

def messageAt {α : Type} (site : Site) (name : QueueName) (read : Json → Option α)
    (position : ℕ) : Option α :=
  ((site.deployment.queue name).take? position).bind (fun taken => read taken.1)

/-- The other events have an execution, or a message for one. -/
def Elsewhere (site : Site) : Deployment.Event → Prop
  | .work _ position => site.messageAt .worker workerMessage.read position = none
  | .merge position _ => site.messageAt .merge mergeMessage.read position = none
  | .report _ _ => False
  | .fail _ => False
  | .restart _ => False
  | _ => True

instance Elsewhere.decidable (site : Site) :
    (event : Deployment.Event) → Decidable (site.Elsewhere event)
  | .work _ position =>
      inferInstanceAs (Decidable (site.messageAt .worker workerMessage.read position = none))
  | .merge position _ =>
      inferInstanceAs (Decidable (site.messageAt .merge mergeMessage.read position = none))
  | .report _ _ | .fail _ | .restart _ => isFalse id
  | .connect _ | .post _ _ | .receive _ _ _ | .createOrchestrator _ | .createWorkers _ _ _ _
  | .startEchoWorker _ _ _ | .acknowledge _ | .stop _ | .lose _ _ | .callback _ _ _ _ _
  | .mergeCallback _ _ | .trackStart _ _ _ | .trackWorkerCallback _ _ _
  | .trackMergeCallback _ _ _ => isTrue trivial

def deploy (site : Site) (event : Deployment.Event) : Option Site :=
  (Deployment.machine.step site.deployment event).map (fun next =>
    { site with deployment := next })

def setExecution (site : Site) (thread : ℕ) (execution : Option ℕ) : Site :=
  { site with executions := Function.update site.executions thread execution }

section

variable (dataLocal : Bool)

def render (site : Site) (event : SkipIfExists.Event EchoWorkerMessage) : Option Site :=
  ((workerJob dataLocal).machine.step site.workers event).map (fun workers =>
    { site with workers := workers })

def build (site : Site) (event : SkipIfExists.Event EchoMergeMessage) : Option Site :=
  ((mergerJob dataLocal).machine.step site.mergers event).map (fun mergers =>
    { site with mergers := mergers })

def work (site : Site) (thread position execution : ℕ) : Option Site :=
  match site.messageAt .worker workerMessage.read position with
  | none => none
  | some message =>
      ((site.deploy (.work thread position)).bind (fun next =>
        next.render dataLocal (.deliver execution message))).map (fun next =>
          next.setExecution thread (some execution))

/-- The execution of a thread ends, and so does the delivery of its message. -/
def endExecution (site : Site) (thread : ℕ)
    (event : SkipIfExists.Event EchoWorkerMessage) (ending : Deployment.Event) : Option Site :=
  ((site.deploy ending).bind (fun next => next.render dataLocal event)).map (fun next =>
    next.setExecution thread none)

/-- A thread without a message can end as well. -/
def crash (site : Site) (thread : ℕ) (ending : Deployment.Event) : Option Site :=
  match site.executions thread with
  | none => site.deploy ending
  | some execution => site.endExecution dataLocal thread (.crash execution) ending

def receiveMerge (site : Site) (execution position : ℕ) : Option Site :=
  match site.messageAt .merge mergeMessage.read position with
  | none => none
  | some message => site.build dataLocal (.deliver execution message)

def merge (site : Site) (execution position : ℕ) (settlement : Deployment.Settlement) :
    Option Site :=
  match site.messageAt .merge mergeMessage.read position with
  | none => none
  | some message =>
      if site.mergers.phases execution = .ready message then
        (site.deploy (.merge position settlement)).bind (fun next =>
          next.build dataLocal (.report execution))
      else none

def step (site : Site) : Event → Option Site
  | .deploy event => if site.Elsewhere event then site.deploy event else none
  | .work thread position execution => site.work dataLocal thread position execution
  | .checkTile thread =>
      (site.executions thread).bind (fun execution => site.render dataLocal (.check execution))
  | .callTile thread =>
      (site.executions thread).bind (fun execution => site.render dataLocal (.call execution))
  | .report thread settlement =>
      (site.executions thread).bind (fun execution =>
        site.endExecution dataLocal thread (.report execution)
          (.report thread settlement))
  | .fail thread => site.crash dataLocal thread (.fail thread)
  | .restart thread => site.crash dataLocal thread (.restart thread)
  | .receiveMerge execution position => site.receiveMerge dataLocal execution position
  | .checkResult execution => site.build dataLocal (.check execution)
  | .callResult execution => site.build dataLocal (.call execution)
  | .merge execution position settlement => site.merge dataLocal execution position settlement
  | .failMerge execution => site.build dataLocal (.crash execution)

/-- Every interleaving of the services and of the calls of their programs is a run, where a
call of GDAL does what it is asked to, unless its process ends. -/
def machine : Machine Site Event where
  step := step dataLocal

/-! ### What a step can do -/

/-- One constructor for each kind of event, with what it does in the parts of the site. -/
inductive Transition (site : Site) : Event → Site → Prop where
  | deployed {event next} (elsewhere : site.Elsewhere event)
      (stepped : Deployment.machine.step site.deployment event = some next) :
      Transition site (.deploy event) { site with deployment := next }
  | began {thread position execution message next workers}
      (found : site.messageAt .worker workerMessage.read position = some message)
      (stepped : Deployment.machine.step site.deployment (.work thread position) = some next)
      (called : (workerJob dataLocal).machine.step site.workers (.deliver execution message) =
        some workers) :
      Transition site (.work thread position execution)
        ({ site with deployment := next, workers := workers }.setExecution thread (some execution))
  | checked {thread execution workers} (current : site.executions thread = some execution)
      (called : (workerJob dataLocal).machine.step site.workers (.check execution) =
        some workers) :
      Transition site (.checkTile thread) { site with workers := workers }
  | rendered {thread execution workers} (current : site.executions thread = some execution)
      (called : (workerJob dataLocal).machine.step site.workers (.call execution) =
        some workers) :
      Transition site (.callTile thread) { site with workers := workers }
  | reported {thread settlement execution next workers}
      (current : site.executions thread = some execution)
      (stepped : Deployment.machine.step site.deployment (.report thread settlement) = some next)
      (called : (workerJob dataLocal).machine.step site.workers (.report execution) =
        some workers) :
      Transition site (.report thread settlement)
        ({ site with deployment := next, workers := workers }.setExecution thread none)
  | crashed {event thread ending execution next workers}
      (own : event.deployment? = some ending)
      (ends : ending = .fail thread ∨ ending = .restart thread)
      (current : site.executions thread = some execution)
      (stepped : Deployment.machine.step site.deployment ending = some next)
      (called : (workerJob dataLocal).machine.step site.workers (.crash execution) =
        some workers) :
      Transition site event
        ({ site with deployment := next, workers := workers }.setExecution thread none)
  | stopped {event thread ending next}
      (own : event.deployment? = some ending)
      (ends : ending = .fail thread ∨ ending = .restart thread)
      (current : site.executions thread = none)
      (stepped : Deployment.machine.step site.deployment ending = some next) :
      Transition site event { site with deployment := next }
  | received {execution position message mergers}
      (found : site.messageAt .merge mergeMessage.read position = some message)
      (called : (mergerJob dataLocal).machine.step site.mergers (.deliver execution message) =
        some mergers) :
      Transition site (.receiveMerge execution position) { site with mergers := mergers }
  | checkedResult {execution mergers}
      (called : (mergerJob dataLocal).machine.step site.mergers (.check execution) =
        some mergers) :
      Transition site (.checkResult execution) { site with mergers := mergers }
  | built {execution mergers}
      (called : (mergerJob dataLocal).machine.step site.mergers (.call execution) =
        some mergers) :
      Transition site (.callResult execution) { site with mergers := mergers }
  | merged {execution position settlement message next mergers}
      (found : site.messageAt .merge mergeMessage.read position = some message)
      (ready : site.mergers.phases execution = .ready message)
      (stepped : Deployment.machine.step site.deployment (.merge position settlement) = some next)
      (called : (mergerJob dataLocal).machine.step site.mergers (.report execution) =
        some mergers) :
      Transition site (.merge execution position settlement)
        { site with deployment := next, mergers := mergers }
  | mergeFailed {execution mergers}
      (called : (mergerJob dataLocal).machine.step site.mergers (.crash execution) =
        some mergers) :
      Transition site (.failMerge execution) { site with mergers := mergers }

variable {dataLocal}

private theorem deploy_eq_some {site next : Site} {event : Deployment.Event}
    (stepped : site.deploy event = some next) :
    ∃ deployment, Deployment.machine.step site.deployment event = some deployment ∧
      next = { site with deployment := deployment } := by
  obtain ⟨deployment, moved, rfl⟩ := Option.map_eq_some_iff.mp stepped
  exact ⟨deployment, moved, rfl⟩

private theorem render_eq_some {site next : Site} {event : SkipIfExists.Event EchoWorkerMessage}
    (stepped : site.render dataLocal event = some next) :
    ∃ workers, (workerJob dataLocal).machine.step site.workers event = some workers ∧
      next = { site with workers := workers } := by
  obtain ⟨workers, moved, rfl⟩ := Option.map_eq_some_iff.mp stepped
  exact ⟨workers, moved, rfl⟩

private theorem build_eq_some {site next : Site} {event : SkipIfExists.Event EchoMergeMessage}
    (stepped : site.build dataLocal event = some next) :
    ∃ mergers, (mergerJob dataLocal).machine.step site.mergers event = some mergers ∧
      next = { site with mergers := mergers } := by
  obtain ⟨mergers, moved, rfl⟩ := Option.map_eq_some_iff.mp stepped
  exact ⟨mergers, moved, rfl⟩

private theorem endExecution_eq_some {site next : Site} {thread : ℕ}
    {event : SkipIfExists.Event EchoWorkerMessage} {ending : Deployment.Event}
    (stepped : site.endExecution dataLocal thread event ending = some next) :
    ∃ deployment workers, Deployment.machine.step site.deployment ending = some deployment ∧
      (workerJob dataLocal).machine.step site.workers event = some workers ∧
      next = { site with deployment := deployment, workers := workers }.setExecution thread
        none := by
  obtain ⟨rendered, moved, rfl⟩ := Option.map_eq_some_iff.mp stepped
  obtain ⟨deployed, deploys, renders⟩ := Option.bind_eq_some_iff.mp moved
  obtain ⟨deployment, ended, rfl⟩ := deploy_eq_some deploys
  obtain ⟨workers, called, rfl⟩ := render_eq_some renders
  exact ⟨deployment, workers, ended, called, rfl⟩

private theorem crash_transition {site next : Site} {event : Event} {thread : ℕ}
    {ending : Deployment.Event} (own : event.deployment? = some ending)
    (ends : ending = .fail thread ∨ ending = .restart thread)
    (stepped : site.crash dataLocal thread ending = some next) :
    Transition dataLocal site event next := by
  unfold crash at stepped
  split at stepped
  · rename_i current
    obtain ⟨deployment, ended, rfl⟩ := deploy_eq_some stepped
    exact .stopped own ends current ended
  · rename_i execution current
    obtain ⟨deployment, workers, ended, called, rfl⟩ := endExecution_eq_some stepped
    exact .crashed own ends current ended called

theorem step_transition {site next : Site} {event : Event}
    (stepped : (machine dataLocal).step site event = some next) :
    Transition dataLocal site event next := by
  cases event with
  | deploy event =>
      obtain ⟨elsewhere, deploys⟩ := Option.ite_none_right_eq_some.mp stepped
      obtain ⟨deployment, moved, rfl⟩ := deploy_eq_some deploys
      exact .deployed elsewhere moved
  | work thread position execution =>
      change site.work dataLocal thread position execution = some next at stepped
      unfold work at stepped
      split at stepped
      · cases stepped
      · rename_i message found
        obtain ⟨rendered, moved, rfl⟩ := Option.map_eq_some_iff.mp stepped
        obtain ⟨deployed, deploys, renders⟩ := Option.bind_eq_some_iff.mp moved
        obtain ⟨deployment, began, rfl⟩ := deploy_eq_some deploys
        obtain ⟨workers, called, rfl⟩ := render_eq_some renders
        exact .began found began called
  | checkTile thread =>
      obtain ⟨execution, current, renders⟩ := Option.bind_eq_some_iff.mp stepped
      obtain ⟨workers, called, rfl⟩ := render_eq_some renders
      exact .checked current called
  | callTile thread =>
      obtain ⟨execution, current, renders⟩ := Option.bind_eq_some_iff.mp stepped
      obtain ⟨workers, called, rfl⟩ := render_eq_some renders
      exact .rendered current called
  | report thread settlement =>
      obtain ⟨execution, current, ends⟩ := Option.bind_eq_some_iff.mp stepped
      obtain ⟨deployment, workers, ended, called, rfl⟩ := endExecution_eq_some ends
      exact .reported current ended called
  | fail thread => exact crash_transition rfl (Or.inl rfl) stepped
  | restart thread => exact crash_transition rfl (Or.inr rfl) stepped
  | receiveMerge execution position =>
      change site.receiveMerge dataLocal execution position = some next at stepped
      unfold receiveMerge at stepped
      split at stepped
      · cases stepped
      · rename_i message found
        obtain ⟨mergers, called, rfl⟩ := build_eq_some stepped
        exact .received found called
  | checkResult execution =>
      obtain ⟨mergers, called, rfl⟩ := build_eq_some stepped
      exact .checkedResult called
  | callResult execution =>
      obtain ⟨mergers, called, rfl⟩ := build_eq_some stepped
      exact .built called
  | merge execution position settlement =>
      change site.merge dataLocal execution position settlement = some next at stepped
      unfold merge at stepped
      split at stepped
      · cases stepped
      · rename_i message found
        obtain ⟨ready, moved⟩ := Option.ite_none_right_eq_some.mp stepped
        obtain ⟨deployed, deploys, builds⟩ := Option.bind_eq_some_iff.mp moved
        obtain ⟨deployment, merges, rfl⟩ := deploy_eq_some deploys
        obtain ⟨mergers, called, rfl⟩ := build_eq_some builds
        exact .merged found ready merges called
  | failMerge execution =>
      change site.build dataLocal (.crash execution) = some next at stepped
      obtain ⟨mergers, called, rfl⟩ := build_eq_some stepped
      exact .mergeFailed called

/-! ### The parts of a step -/

theorem Transition.deployment_step {site next : Site} {event : Event}
    (transition : Transition dataLocal site event next) :
    (event.deployment? = none ∧ next.deployment = site.deployment) ∨
      ∃ inner, event.deployment? = some inner ∧
        Deployment.machine.step site.deployment inner = some next.deployment := by
  cases transition with
  | deployed elsewhere stepped => exact Or.inr ⟨_, rfl, stepped⟩
  | began found stepped called => exact Or.inr ⟨_, rfl, stepped⟩
  | reported current stepped called => exact Or.inr ⟨_, rfl, stepped⟩
  | crashed own ends current stepped called => exact Or.inr ⟨_, own, stepped⟩
  | stopped own ends current stepped => exact Or.inr ⟨_, own, stepped⟩
  | merged found ready stepped called => exact Or.inr ⟨_, rfl, stepped⟩
  | _ => exact Or.inl ⟨rfl, rfl⟩

end

/-! ### Threads and their executions -/

def thread? : Deployment.Event → Option ℕ
  | .work thread _ => some thread
  | .report thread _ => some thread
  | .fail thread => some thread
  | .restart thread => some thread
  | _ => none

end Site

namespace Deployment

private theorem threads_settle (deployment : Deployment) (name : QueueName)
    (rest : WorkQueue ℕ Json) (settlement : Settlement) :
    (deployment.settle name rest settlement).threads = deployment.threads := by
  cases settlement <;> rfl

theorem threads_settleThread (deployment : Deployment) (thread : ℕ) (settlement : Settlement) :
    (deployment.settleThread thread settlement).threads = deployment.threads := by
  cases settlement <;> rfl

theorem threads_reject (deployment : Deployment) (name : QueueName) (body : Json)
    (rest : WorkQueue ℕ Json) :
    (deployment.reject name body rest).threads = deployment.threads := by
  unfold reject
  dsimp only
  split <;> rfl

theorem Transition.threads_of_ne {deployment next : Deployment} {event : Event}
    (transition : Transition deployment event next) {thread : ℕ}
    (other : Site.thread? event ≠ some thread) :
    next.threads thread = deployment.threads thread := by
  have different : ∀ {own : ℕ}, Site.thread? event = some own → thread ≠ own := by
    rintro own same rfl
    exact other same
  cases transition with
  | rejected taken unreadable => rw [threads_reject]
  | advanced transaction stepped => rw [threads_giveBackIfIdle]; rfl
  | began free unheld taken readable => exact Function.update_of_ne (different rfl) _ _
  | reported running =>
      change (settleThread _ _ _).threads _ = _
      rw [threads_settleThread]
      exact Function.update_of_ne (different rfl) _ _
  | failed => exact Function.update_of_ne (different rfl) _ _
  | restarted => exact Function.update_of_ne (different rfl) _ _
  | calledBack taken readable returned => exact congrFun (threads_settle _ _ _ _) _
  | merged taken readable => exact congrFun (threads_settle _ _ _ _) _
  | mergeHandled taken readable => exact congrFun (threads_settle _ _ _ _) _
  | startTracked taken readable returned => exact congrFun (threads_settle _ _ _ _) _
  | workerTracked taken readable returned => exact congrFun (threads_settle _ _ _ _) _
  | mergeTracked taken readable => exact congrFun (threads_settle _ _ _ _) _
  | _ => rfl

end Deployment

namespace Site

theorem running_of_work {site : Site} {thread position : ℕ} {message : EchoWorkerMessage}
    {next : Deployment} (found : site.messageAt .worker workerMessage.read position = some message)
    (stepped : Deployment.machine.step site.deployment (.work thread position) = some next) :
    (next.threads thread).running = some message := by
  obtain ⟨taken, takenEq, readable⟩ := Option.bind_eq_some_iff.mp found
  obtain ⟨_, delivered⟩ := Option.ite_none_right_eq_some.mp stepped
  obtain ⟨body, rest, same, ⟨unreadable, _⟩ | ⟨payload, payloadRead, rfl⟩⟩ :=
    Deployment.deliver_cases delivered
  · rw [takenEq] at same
    cases same
    rw [readable] at unreadable
    cases unreadable
  · rw [takenEq] at same
    cases same
    rw [readable] at payloadRead
    cases payloadRead
    change (Function.update site.deployment.threads thread _ thread).running = _
    rw [Function.update_self]
    rfl

/-- An execution works on the message that its thread runs. -/
structure Linked (site : Site) : Prop where
  running : ∀ thread execution, site.executions thread = some execution → ∃ message,
    (site.deployment.threads thread).running = some message ∧
      (site.workers.phases execution).message? = some message
  distinct : ∀ left right execution, site.executions left = some execution →
    site.executions right = some execution → left = right

theorem linked_initial : Linked initial :=
  { running := fun _ _ current => by cases current
    distinct := fun _ _ _ current => by cases current }

section

variable {dataLocal : Bool} {site : Site}

theorem Linked.setDeployment (linked : Linked site) {event : Deployment.Event} {next : Deployment}
    (stepped : Deployment.machine.step site.deployment event = some next)
    (free : ∀ thread, thread? event = some thread → site.executions thread = none) :
    Linked { site with deployment := next } := by
  refine { running := ?_, distinct := linked.distinct }
  intro thread execution current
  have other : thread? event ≠ some thread := by
    intro own
    rw [free thread own] at current
    cases current
  rw [(Deployment.step_transition stepped).threads_of_ne other]
  exact linked.running thread execution current

theorem Linked.endExecution (linked : Linked site) {thread execution : ℕ}
    {ending : Deployment.Event} {inner : SkipIfExists.Event EchoWorkerMessage}
    {next : Deployment} {workers : SkipIfExists.State EchoWorkerMessage String GdalCall}
    (current : site.executions thread = some execution) (own : thread? ending = some thread)
    (stepped : Deployment.machine.step site.deployment ending = some next)
    (called : (workerJob dataLocal).machine.step site.workers inner = some workers)
    (about : inner.execution = execution) :
    Linked ({ site with deployment := next, workers := workers }.setExecution thread none) := by
  have others : ∀ other mine,
      Function.update site.executions thread none other = some mine →
      other ≠ thread ∧ site.executions other = some mine := by
    intro other mine assigned
    by_cases same : other = thread
    · rw [same, Function.update_self] at assigned
      cases assigned
    · exact ⟨same, (Function.update_of_ne same _ _).symm.trans assigned⟩
  constructor
  · intro other mine assigned
    obtain ⟨different, before⟩ := others other mine assigned
    obtain ⟨message, running, given⟩ := linked.running other mine before
    have apart : mine ≠ inner.execution := by
      rintro rfl
      exact different (linked.distinct other thread _ before (about ▸ current))
    refine ⟨message, ?_, ?_⟩
    · change (next.threads other).running = _
      rw [(Deployment.step_transition stepped).threads_of_ne]
      · exact running
      · intro same
        exact different (Option.some.inj (same.symm.trans own))
    · change (workers.phases mine).message? = _
      rw [(SkipIfExists.step_transition called).phases_of_ne apart]
      exact given
  · intro left right mine leftAssigned rightAssigned
    exact linked.distinct left right mine (others left mine leftAssigned).2
      (others right mine rightAssigned).2

theorem Linked.begin (linked : Linked site) {thread position execution : ℕ}
    {message : EchoWorkerMessage} {next : Deployment}
    {workers : SkipIfExists.State EchoWorkerMessage String GdalCall}
    (found : site.messageAt .worker workerMessage.read position = some message)
    (stepped : Deployment.machine.step site.deployment (.work thread position) = some next)
    (called : (workerJob dataLocal).machine.step site.workers (.deliver execution message) =
      some workers) :
    Linked ({ site with deployment := next, workers := workers }.setExecution thread
      (some execution)) := by
  have transition := SkipIfExists.step_transition called
  have new : site.workers.phases execution = .idle ∧
      workers.phases execution = .delivered message := by
    cases transition with
    | delivered idle => exact ⟨idle, Function.update_self _ _ _⟩
  have apart : ∀ other mine, site.executions other = some mine → mine ≠ execution := by
    rintro other mine before rfl
    obtain ⟨_, _, given⟩ := linked.running other mine before
    rw [new.1] at given
    cases given
  constructor
  · intro other mine assigned
    by_cases same : other = thread
    · subst same
      obtain rfl : execution = mine :=
        Option.some.inj ((Function.update_self other _ _).symm.trans assigned)
      refine ⟨message, running_of_work found stepped, ?_⟩
      change (workers.phases execution).message? = _
      rw [new.2]
      rfl
    · have before : site.executions other = some mine :=
        (Function.update_of_ne same _ _).symm.trans assigned
      obtain ⟨own, running, given⟩ := linked.running other mine before
      refine ⟨own, ?_, ?_⟩
      · change (next.threads other).running = _
        rw [(Deployment.step_transition stepped).threads_of_ne]
        · exact running
        · intro equal
          exact same (Option.some.inj equal).symm
      · change (workers.phases mine).message? = _
        rw [transition.phases_of_ne (apart other mine before)]
        exact given
  · intro left right mine leftAssigned rightAssigned
    have assignment : ∀ other, Function.update site.executions thread (some execution) other =
        some mine → (other = thread ∧ mine = execution) ∨ site.executions other = some mine := by
      intro other assigned
      by_cases same : other = thread
      · rw [same, Function.update_self] at assigned
        exact Or.inl ⟨same, (Option.some.inj assigned).symm⟩
      · exact Or.inr ((Function.update_of_ne same _ _).symm.trans assigned)
    rcases assignment left leftAssigned with ⟨rfl, rfl⟩ | leftBefore
    · rcases assignment right rightAssigned with ⟨rfl, _⟩ | rightBefore
      · rfl
      · exact absurd rfl (apart right mine rightBefore)
    · rcases assignment right rightAssigned with ⟨rfl, rfl⟩ | rightBefore
      · exact absurd rfl (apart left mine leftBefore)
      · exact linked.distinct left right mine leftBefore rightBefore

theorem Linked.call (linked : Linked site) {inner : SkipIfExists.Event EchoWorkerMessage}
    {workers : SkipIfExists.State EchoWorkerMessage String GdalCall}
    (called : (workerJob dataLocal).machine.step site.workers inner = some workers)
    (works : inner = .check inner.execution ∨ inner = .call inner.execution) :
    Linked { site with workers := workers } := by
  refine { running := ?_, distinct := linked.distinct }
  intro thread execution current
  rw [(SkipIfExists.step_transition called).message?_of_check works]
  exact linked.running thread execution current

theorem Transition.linked {next : Site} {event : Event}
    (transition : Transition dataLocal site event next) (linked : Linked site) : Linked next := by
  cases transition with
  | @deployed event next elsewhere stepped =>
      apply linked.setDeployment stepped
      intro thread own
      cases event with
      | work other position =>
          cases own
          cases current : site.executions thread with
          | none => rfl
          | some execution =>
              obtain ⟨⟨free, _⟩, _⟩ := Option.ite_none_right_eq_some.mp stepped
              obtain ⟨message, running, _⟩ := linked.running thread execution current
              rw [free] at running
              cases running
      | report other settlement | fail other | restart other => cases elsewhere
      | _ => cases own
  | began found stepped called => exact linked.begin found stepped called
  | checked current called => exact linked.call called (Or.inl rfl)
  | rendered current called => exact linked.call called (Or.inr rfl)
  | reported current stepped called => exact linked.endExecution current rfl stepped called rfl
  | crashed own ends current stepped called =>
      rcases ends with rfl | rfl
      · exact linked.endExecution current rfl stepped called rfl
      · exact linked.endExecution current rfl stepped called rfl
  | stopped own ends current stepped =>
      apply linked.setDeployment stepped
      intro other same
      rcases ends with rfl | rfl
      · cases same
        exact current
      · cases same
        exact current
  | merged found ready stepped called =>
      have moved := linked.setDeployment stepped (fun _ same => by cases same)
      exact ⟨moved.running, moved.distinct⟩
  | received found called => exact ⟨linked.running, linked.distinct⟩
  | checkedResult called => exact ⟨linked.running, linked.distinct⟩
  | built called => exact ⟨linked.running, linked.distinct⟩
  | mergeFailed called => exact ⟨linked.running, linked.distinct⟩

end

end Site

end EchoProcessing
