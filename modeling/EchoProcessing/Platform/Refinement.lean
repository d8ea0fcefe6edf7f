/-
The deployed services do what the platform does.

Each step over the broker is at most one step of the platform. What is pending in a queue
was published with the key of that queue, so a listener can read all that it is given, and
nothing becomes a dead letter.
-/

import EchoProcessing.Platform.Exchange

namespace EchoProcessing

open Messaging Orchestrator

namespace Deployment

/-! ### Steps of the orchestrator -/

private theorem run_orchestrate {platform : Platform} {event : Orchestrator.Event} {system : System}
    (accepted : platform.Accepts event)
    (stepped : delivery.step platform.orchestrator event = some system) :
    Platform.machine.Runs platform [.orchestrate event]
      { platform with orchestrator := system } := by
  have moved : Platform.machine.step platform (.orchestrate event) =
      some { platform with orchestrator := system } := by
    change platform.orchestrate event = _
    unfold Platform.orchestrate
    rw [if_pos accepted, stepped]
    rfl
  exact .single moved

theorem Refines.followTransaction {deployment next : Deployment} {platform : Platform}
    {event : Event} {inner : Orchestrator.Event} {handler : ℕ} {system : System}
    {name : QueueName} {gone : List Json} (refines : Refines deployment platform)
    (sound : Platform.Sound platform) (transition : Transition deployment event next)
    (stepped : delivery.step deployment.system inner = some system)
    (own : inner.handler? = some handler) (accepted : platform.Accepts inner)
    (state : next.db = system.db ∧ next.handlers = system.handlers ∧
      next.threads = deployment.threads ∧ next.trackers = deployment.trackers ∧
        next.drawn = deployment.drawn)
    (moves : deployment.broker.Moves next.broker name gone (.echo, .worker)
      (system.workerMessages.map workerMessage.write))
    (consumed : ∀ body ∈ gone, Consumed deployment next event .worker
      (system.workerMessages.map workerMessage.write) name body) :
    ∃ image, Follows deployment next event platform image := by
  obtain ⟨db, handlers, threads, trackers, drawn⟩ := state
  obtain ⟨image, imageStepped, repeats⟩ := (step_performs stepped).repeated own
    refines.agrees.db refines.agrees.handlers
  obtain ⟨sent, systemSent, imageSent⟩ := repeats.workerMessages
  obtain rfl : system.workerMessages = sent := systemSent
  refine refines.follow transition (run_orchestrate accepted imageStepped) ?_ ?_
    { known := ?_
      moves := moves
      bodies := bodies_append ?_ ?_
      consumed := consumed
      caused := ?_
      reports := fun _ _ => .other nofun nofun
      fresh := nofun
      restarted := ?_ }
  · exact
      { db := repeats.db.trans db.symm
        handlers := repeats.handlers.trans handlers.symm
        threads := refines.agrees.threads.trans threads.symm
        trackers := refines.agrees.trackers.trans trackers.symm }
  · rw [drawn]
    exact refines.drawn
  · exact nofun
  · change image.workerMessages.map _ = platform.orchestrator.workerMessages.map _ ++ _
    rw [imageSent, List.map_append]
  · intro other different
    cases other with
    | worker => exact absurd rfl different
    | workerCallback =>
        change image.callbackMessages.map _ = _
        rw [repeats.callbackMessages]
        rfl
    | merge =>
        change image.mergeMessages.map _ = _
        rw [repeats.mergeMessages]
        rfl
    | _ => rfl
  · intro sent
    obtain ⟨message, totalWorkers, workers, phase⟩ :=
      (step_performs stepped).transition.starting_of_sent own
        (fun none => sent (congrArg (List.map workerMessage.write) none))
    rw [show deployment.system.handlers = _ from refines.agrees.handlers.symm] at phase
    have counted := sound.counted.handlers handler
    rw [phase] at counted
    exact Or.inr ⟨.start, _, List.mem_map_of_mem counted.1⟩
  · intro row member processing
    rw [db] at member
    rcases (step_performs stepped).transition.restarted own member processing with
      old | ⟨message, published, same⟩
    · exact Or.inl old
    · exact Or.inr ⟨rfl, message, same, List.mem_map_of_mem published⟩

private theorem caused_of_mem {platform : Platform} {key : RoutingKey} {body : Json}
    (published : body ∈ platform.bodies key) {event : Event} {sent : List Json} :
    sent ≠ [] → event.Accepted ∨ ∃ other body, body ∈ platform.bodies other :=
  fun _ => Or.inr ⟨key, body, published⟩

private theorem restarted_of_db {deployment next : Deployment} {key : RoutingKey} {sent : List Json}
    (same : next.db = deployment.db) :
    ∀ row ∈ next.db.workers.rows, row.state = .processing →
      row ∈ deployment.db.workers.rows ∨ (key = .worker ∧ ∃ message : EchoWorkerMessage,
        message.workerId = row.workerId ∧ workerMessage.write message ∈ sent) :=
  fun _ member _ => Or.inl (same ▸ member)

private theorem exchanges_unsent {deployment next : Deployment} {platform image : Platform}
    {event : Event} {name : QueueName} {gone : List Json} {key : RoutingKey} (known : key ≠ .echo)
    (moves : deployment.broker.Moves next.broker name gone (.echo, key) [])
    (bodies : image.bodies = platform.bodies)
    (consumed : ∀ body ∈ gone, Consumed deployment next event key [] name body)
    (db : next.db = deployment.db) :
    Exchanges deployment next event platform image name gone key [] :=
  { known := known
    moves := moves
    bodies := bodies_same bodies key
    consumed := consumed
    caused := fun some => absurd rfl some
    reports := List.forall_mem_nil _
    fresh := fun _ => ⟨List.nodup_nil, List.forall_mem_nil _⟩
    restarted := restarted_of_db db }

private theorem followReceived {deployment : Deployment} {platform : Platform}
    {handler position : ℕ} {strategy : ErrorStrategy} {body : Json} {rest : WorkQueue ℕ Json}
    {message : EchoStartMessage} (refines : Refines deployment platform)
    (sound : Platform.Sound platform)
    (idle : deployment.handlers handler = .idle)
    (free : (deployment.queue .start).held handler = [])
    (taken : (deployment.queue .start).take? position = some (body, rest))
    (readable : Start.message.read body = some message) :
    ∃ image, Follows deployment ((deployment.setHandler handler (.received message)).setQueue
      .start (rest.hold handler body)) (.receive handler position strategy) platform image := by
  have pending : body ∈ (deployment.queue .start).pending :=
    (WorkQueue.pending_of_take? taken).mem_iff.mpr List.mem_cons_self
  have requested := (mem_of_read Start.message (refines.carried _ _ pending) readable).1
  have received : delivery.step deployment.system (.receive handler message) = some _ :=
    (Performs.receive idle).step
  have moves := (Broker.moves_refl deployment.broker .start
    (Exchange.echo, RoutingKey.worker)).setQueue
    (WorkQueue.pending_hold_of_take? taken handler)
  apply refines.followTransaction sound (.received idle free taken readable) received rfl requested
    ⟨rfl, rfl, rfl, rfl, rfl⟩ moves
  exact fun _ impossible => by cases impossible

private theorem followAdvanced {deployment : Deployment} {platform : Platform} {event : Event}
    {handler : ℕ} {inner : Orchestrator.Event} {system : System}
    (refines : Refines deployment platform) (sound : Platform.Sound platform)
    (transaction : event.transaction? = some (handler, inner))
    (stepped : delivery.step deployment.system inner = some system) :
    ∃ image, Follows deployment
      (({ deployment with db := system.db, handlers := system.handlers }.publish .worker
        (system.workerMessages.map workerMessage.write)).giveBackIfIdle handler) event platform
        image := by
  have accepted : platform.Accepts inner := by
    cases event with
    | createOrchestrator own | createWorkers own handlerStrategy uuid scan
    | startEchoWorker own handlerStrategy outcome =>
        obtain ⟨rfl, rfl⟩ := Prod.mk.inj (Option.some.inj transaction)
        trivial
    | _ => cases transaction
  have published := (Broker.moves_refl deployment.broker .start
    (Exchange.echo, RoutingKey.worker)).publishAll rfl
      (system.workerMessages.map workerMessage.write)
  have given : ∀ next : Deployment, next.broker = deployment.broker.publishAll
      (.echo, .worker) (system.workerMessages.map workerMessage.write) →
      deployment.broker.Moves (next.giveBackIfIdle handler).broker .start []
        (.echo, .worker) (system.workerMessages.map workerMessage.write) := by
    intro next same
    unfold giveBackIfIdle
    split
    · exact (same ▸ published).setQueue (WorkQueue.pending_giveBack _ _)
    · exact same ▸ published
  apply refines.followTransaction sound (.advanced transaction stepped) stepped
    (handler?_of_transaction transaction).1 accepted _ (given _ rfl)
  · exact fun _ impossible => by cases impossible
  · unfold giveBackIfIdle
    split <;> exact ⟨rfl, rfl, rfl, rfl, rfl⟩

private theorem followAcknowledged {deployment : Deployment} {platform : Platform} {handler : ℕ}
    {system : System} (refines : Refines deployment platform) (sound : Platform.Sound platform)
    (stepped : delivery.step deployment.system (.acknowledge handler) = some system) :
    ∃ image, Follows deployment ({ deployment with handlers := system.handlers }.setQueue .start
      ((deployment.queue .start).acknowledge handler)) (.acknowledge handler) platform image := by
  cases step_performs stepped with
  | @acknowledge handler message totalWorkers phase =>
      have moves := Broker.moves_setQueue deployment.broker (Exchange.echo, RoutingKey.worker)
        ((deployment.queue .start).pending_acknowledge handler)
      apply refines.followTransaction sound (.acknowledged stepped) stepped rfl trivial
        ⟨rfl, rfl, rfl, rfl, rfl⟩ moves
      intro body member
      obtain ⟨job, readable, task⟩ := refines.attended.starting.task_of_mem_held member
      unfold startTask at task
      rw [show deployment.handlers handler = _ from phase] at task
      cases task
      have pending : body ∈ (deployment.queue .start).pending :=
        ((deployment.queue .start).pending_acknowledge handler).mem_iff.mpr
          (List.mem_append_left _ member)
      obtain ⟨_, rfl⟩ := mem_of_read Start.message (refines.carried _ _ pending) readable
      exact .start phase

private theorem followStopped {deployment : Deployment} {platform : Platform}
    (refines : Refines deployment platform) (sound : Platform.Sound platform) (handler : ℕ) :
    ∃ image, Follows deployment (deployment.stop handler) (.stop handler) platform image := by
  have stopped : delivery.step deployment.system (.stop handler) = some _ :=
    Performs.stop.step
  have moves := (Broker.moves_refl deployment.broker .start
    (Exchange.echo, RoutingKey.worker)).setQueue
      ((deployment.queue .start).pending_giveBack handler)
  apply refines.followTransaction sound .stopped stopped rfl trivial ⟨rfl, rfl, rfl, rfl, rfl⟩ moves
  exact fun _ impossible => by cases impossible

/-! ### Steps of the worker threads -/

theorem Agrees.setThread {deployment : Deployment} {platform : Platform}
    (agrees : Agrees deployment platform) (thread : ℕ) (content : WorkerThread) :
    Agrees (deployment.setThread thread content) (platform.setThread thread content) :=
  { db := agrees.db
    handlers := agrees.handlers
    threads := by
      change Function.update platform.threads thread content = _
      rw [agrees.threads]
      rfl
    trackers := agrees.trackers }

theorem Agrees.settleThread {deployment : Deployment} {platform : Platform}
    (agrees : Agrees deployment platform) (thread : ℕ) (settlement : Settlement) :
    Agrees (deployment.settleThread thread settlement) platform := by
  cases settlement with
  | acknowledged => exact ⟨agrees.db, agrees.handlers, agrees.threads, agrees.trackers⟩
  | givenBack => exact ⟨agrees.db, agrees.handlers, agrees.threads, agrees.trackers⟩

theorem moves_settleThread (deployment : Deployment) (thread : ℕ) (settlement : Settlement)
    (address : Address) :
    ∃ gone, (∀ body ∈ gone, body ∈ (deployment.queue .worker).held thread) ∧
      deployment.broker.Moves (deployment.settleThread thread settlement).broker .worker gone
        address [] := by
  cases settlement with
  | acknowledged =>
      refine ⟨(deployment.queue .worker).held thread, fun _ member => member, ?_⟩
      exact Broker.moves_setQueue deployment.broker address
        ((deployment.queue .worker).pending_acknowledge thread)
  | givenBack =>
      refine ⟨[], fun _ impossible => (by cases impossible), ?_⟩
      exact (Broker.moves_refl deployment.broker .worker address).setQueue
        ((deployment.queue .worker).pending_giveBack thread)

private theorem followBegan {deployment : Deployment} {platform : Platform} {thread position : ℕ}
    {body : Json} {rest : WorkQueue ℕ Json} {message : EchoWorkerMessage}
    (refines : Refines deployment platform)
    (free : (deployment.threads thread).running = none)
    (unheld : (deployment.queue .worker).held thread = [])
    (taken : (deployment.queue .worker).take? position = some (body, rest))
    (readable : workerMessage.read body = some message) :
    ∃ image, Follows deployment ((deployment.setThread thread (.receiveMessage message)).setQueue
      .worker (rest.hold thread body)) (.work thread position) platform image := by
  have pending : body ∈ (deployment.queue .worker).pending :=
    (WorkQueue.pending_of_take? taken).mem_iff.mpr List.mem_cons_self
  have published := (mem_of_read workerMessage (refines.carried _ _ pending) readable).1
  have began : Platform.machine.step platform (.receiveMessage thread message) =
      some (platform.setThread thread (.receiveMessage message)) := by
    change platform.receiveMessage thread message = _
    unfold Platform.receiveMessage
    rw [if_pos ⟨refines.agrees.threads ▸ free, published⟩]
  have moves := (Broker.moves_refl deployment.broker .worker
    (Exchange.echo, RoutingKey.worker)).setQueue
    (WorkQueue.pending_hold_of_take? taken thread)
  have agrees := refines.agrees.setThread thread (.receiveMessage message)
  apply refines.follow (.began free unheld taken readable) (.single began)
    ⟨agrees.db, agrees.handlers, agrees.threads, agrees.trackers⟩ refines.drawn
  exact exchanges_unsent (by decide) moves rfl (List.forall_mem_nil _) rfl

private theorem followReported {deployment : Deployment} {platform : Platform} {thread : ℕ}
    {message : EchoWorkerMessage} (refines : Refines deployment platform)
    (sound : Platform.Sound platform) (settlement : Settlement)
    (running : (deployment.threads thread).running = some message) :
    ∃ image, Follows deployment
      (((deployment.setThread thread (deployment.threads thread).release).settleThread thread
        settlement).publish .workerCallback
          [WorkerCallback.message.write ((deployment.threads thread).callback message)])
      (.report thread settlement) platform image := by
  have reported : Platform.machine.step platform (.report thread) =
      some ((platform.published ((deployment.threads thread).callback message)).setThread thread
        (deployment.threads thread).release) := by
    change platform.report thread = _
    unfold Platform.report
    rw [refines.agrees.threads, running]
  have source : workerMessage.write message ∈ platform.bodies .worker :=
    List.mem_map_of_mem (sound.threads thread message (refines.agrees.threads ▸ running)).2
  obtain ⟨gone, held, moves⟩ :=
    (deployment.setThread thread (deployment.threads thread).release).moves_settleThread thread
      settlement (.echo, .workerCallback)
  have agrees := (refines.agrees.setThread thread (deployment.threads thread).release).settleThread
    thread settlement
  have topology : ((deployment.setThread thread (deployment.threads thread).release).settleThread
      thread settlement).broker.topology = deployment.broker.topology := by
    cases settlement <;> rfl
  have drawn : ((deployment.setThread thread (deployment.threads thread).release).settleThread
      thread settlement).drawn = deployment.drawn := by
    cases settlement <;> rfl
  refine refines.follow (.reported running) (.single reported)
    ⟨agrees.db, agrees.handlers, agrees.threads, agrees.trackers⟩ ?_
    { known := by decide
      moves := moves.publishAll topology _
      bodies := bodies_append ?_ ?_
      consumed := ?_
      caused := caused_of_mem source
      reports := fun body member => List.mem_singleton.mp member ▸ .worker running
      fresh := by simp
      restarted := restarted_of_db (by cases settlement <;> rfl) }
  · intro other member
    exact drawn ▸ refines.drawn other member
  · exact List.map_append ..
  · intro other different
    cases other with
    | workerCallback => exact absurd rfl different
    | _ => rfl
  · intro body member
    have own : body ∈ (deployment.queue .worker).held thread := held body member
    obtain ⟨job, readable, task⟩ := refines.attended.working.task_of_mem_held own
    unfold workerTask at task
    rw [running] at task
    cases task
    have pending : body ∈ (deployment.queue .worker).pending :=
      ((deployment.queue .worker).pending_acknowledge thread).mem_iff.mpr
        (List.mem_append_left _ own)
    obtain ⟨_, rfl⟩ := mem_of_read workerMessage (refines.carried _ _ pending) readable
    exact .worker running rfl (List.mem_singleton_self _)

theorem followGivenBack {deployment : Deployment} {platform : Platform} {event : Event}
    {following : Platform.Event} (refines : Refines deployment platform) (thread : ℕ)
    (content : WorkerThread)
    (transition : Transition deployment event
      ((deployment.setThread thread content).settleThread thread .givenBack))
    (followed : Platform.machine.step platform following =
      some (platform.setThread thread content)) :
    ∃ image, Follows deployment
      ((deployment.setThread thread content).settleThread thread .givenBack) event platform
        image := by
  have agrees := (refines.agrees.setThread thread content).settleThread thread .givenBack
  have moves := (Broker.moves_refl deployment.broker .worker
    (Exchange.echo, RoutingKey.worker)).setQueue
    ((deployment.queue .worker).pending_giveBack thread)
  exact refines.follow transition (.single followed) agrees refines.drawn
    (exchanges_unsent (by decide) moves rfl (List.forall_mem_nil _) rfl)

/-! ### Steps of the other listeners -/

theorem moves_settle (deployment : Deployment) {name : QueueName} {position : ℕ} {body : Json}
    {rest : WorkQueue ℕ Json} (taken : (deployment.queue name).take? position = some (body, rest))
    (settlement : Settlement) (address : Address) :
    ∃ gone, (∀ other ∈ gone, other = body) ∧
      deployment.broker.Moves (deployment.settle name rest settlement).broker name gone
        address [] := by
  cases settlement with
  | acknowledged =>
      refine ⟨[body], fun _ member => List.mem_singleton.mp member, ?_⟩
      exact Broker.moves_setQueue deployment.broker address (WorkQueue.pending_of_take? taken)
  | givenBack =>
      exact ⟨[], fun _ impossible => (by cases impossible), Broker.moves_refl _ _ _⟩

theorem Agrees.settle {deployment : Deployment} {platform : Platform}
    (agrees : Agrees deployment platform) (name : QueueName) (rest : WorkQueue ℕ Json)
    (settlement : Settlement) : Agrees (deployment.settle name rest settlement) platform := by
  cases settlement with
  | acknowledged => exact ⟨agrees.db, agrees.handlers, agrees.threads, agrees.trackers⟩
  | givenBack => exact agrees

private theorem drawn_settle (deployment : Deployment) (name : QueueName) (rest : WorkQueue ℕ Json)
    (settlement : Settlement) :
    (deployment.settle name rest settlement).drawn = deployment.drawn := by
  cases settlement <;> rfl

theorem Refines.performsCallback {deployment : Deployment} {platform : Platform}
    {body : Json} {message : EchoWorkerCallbackMessage} {scan : Scan} {database : Database}
    {published : Option EchoMergeMessage} (refines : Refines deployment platform)
    (pending : body ∈ (deployment.queue .workerCallback).pending)
    (readable : WorkerCallback.message.read body = some message)
    (returned : EchoWorkerService.callbackEchoWorker scan deployment.db message.processingId
      message.workerId message.imageURL = .ok (database, published)) :
    message ∈ platform.orchestrator.callbackMessages ∧
      body = WorkerCallback.message.write message ∧
      EchoWorkerService.callbackEchoWorker scan platform.orchestrator.db message.processingId
        message.workerId message.imageURL = .ok (database, published) := by
  obtain ⟨member, written⟩ :=
    mem_of_read WorkerCallback.message (refines.carried _ _ pending) readable
  rw [refines.agrees.db]
  exact ⟨member, written, returned⟩

private theorem bodies_callback {platform : Platform} {system : System}
    {published : Option EchoMergeMessage}
    (workers : system.workerMessages = platform.orchestrator.workerMessages)
    (callbacks : system.callbackMessages = platform.orchestrator.callbackMessages)
    (merges : system.mergeMessages = platform.orchestrator.mergeMessages ++ published.toList)
    (other : RoutingKey) (body : Json) :
    body ∈ ({ platform with orchestrator := system } : Platform).bodies other ↔
      body ∈ platform.bodies other ∨
        (other = .merge ∧ body ∈ published.toList.map mergeMessage.write) := by
  apply bodies_append
  · change system.mergeMessages.map _ = platform.orchestrator.mergeMessages.map _ ++ _
    rw [merges, List.map_append]
  · intro key different
    cases key with
    | worker =>
        change system.workerMessages.map _ = _
        rw [workers]
        rfl
    | workerCallback =>
        change system.callbackMessages.map _ = _
        rw [callbacks]
        rfl
    | merge => exact absurd rfl different
    | _ => rfl

private theorem followCalledBack {deployment : Deployment} {platform : Platform} {position : ℕ}
    {strategy : ErrorStrategy} {scan : Scan} (settlement : Settlement) {body : Json}
    {rest : WorkQueue ℕ Json} {message : EchoWorkerCallbackMessage} {database : Database}
    {published : Option EchoMergeMessage} (refines : Refines deployment platform)
    (taken : (deployment.queue .workerCallback).take? position = some (body, rest))
    (readable : WorkerCallback.message.read body = some message)
    (returned : EchoWorkerService.callbackEchoWorker scan deployment.db message.processingId
      message.workerId message.imageURL = .ok (database, published)) :
    ∃ image, Follows deployment
      (({ deployment with db := database }.settle .workerCallback rest settlement).publish .merge
        (published.toList.map mergeMessage.write))
      (.callback position strategy scan .committed settlement) platform image := by
  have pending : body ∈ (deployment.queue .workerCallback).pending :=
    (WorkQueue.pending_of_take? taken).mem_iff.mpr List.mem_cons_self
  obtain ⟨member, written, performed⟩ := refines.performsCallback pending readable returned
  have stepped := (Performs.callbackReturned member performed).step
  obtain ⟨gone, same, moves⟩ := ({ deployment with db := database } : Deployment).moves_settle
    taken settlement (.echo, .merge)
  have stored : Agrees { deployment with db := database }
      { platform with orchestrator :=
        { platform.orchestrator with
          db := database
          delivered := platform.orchestrator.delivered ++ [message]
          mergeMessages := platform.orchestrator.mergeMessages ++ published.toList } } :=
    ⟨rfl, refines.agrees.handlers, refines.agrees.threads, refines.agrees.trackers⟩
  have agrees := stored.settle .workerCallback rest settlement
  have accepted : platform.Accepts (.callback message scan .committed) := trivial
  refine refines.follow (.calledBack taken readable returned) (run_orchestrate accepted stepped)
    ⟨agrees.db, agrees.handlers, agrees.threads, agrees.trackers⟩ ?_
    { known := by decide
      moves := moves.publishAll (topology_settle _ _ _ _) _
      bodies := bodies_callback rfl rfl rfl
      consumed := ?_
      caused := caused_of_mem (refines.carried _ _ pending)
      reports := fun _ _ => .other nofun nofun
      fresh := by simp
      restarted := ?_ }
  · intro other otherMember
    change other.processingId ∈ (settle _ _ _ _).drawn
    rw [drawn_settle]
    exact refines.drawn other otherMember
  · intro other otherMember
    rw [same other otherMember, written]
    have finished : ((({ deployment with db := database } : Deployment).settle .workerCallback rest
        settlement).publish .merge (published.toList.map mergeMessage.write)).db = database := by
      cases settlement <;> rfl
    rw [← finished] at returned
    exact .workerCallback returned
  · intro row rowMember processing
    have finished : ((({ deployment with db := database } : Deployment).settle .workerCallback rest
        settlement).publish .merge (published.toList.map mergeMessage.write)).db = database := by
      cases settlement <;> rfl
    exact Or.inl (processing_of_callback returned (finished ▸ rowMember) processing).1

private theorem followRolledBack {deployment : Deployment} {platform : Platform} {position : ℕ}
    {strategy : ErrorStrategy} {scan : Scan} {settlement : Settlement} {body : Json}
    {rest : WorkQueue ℕ Json} {message : EchoWorkerCallbackMessage} {database : Database}
    {published : Option EchoMergeMessage} (refines : Refines deployment platform)
    (taken : (deployment.queue .workerCallback).take? position = some (body, rest))
    (readable : WorkerCallback.message.read body = some message)
    (returned : EchoWorkerService.callbackEchoWorker scan deployment.db message.processingId
      message.workerId message.imageURL = .ok (database, published)) :
    ∃ image, Follows deployment
      (deployment.publish .merge (published.toList.map mergeMessage.write))
      (.callback position strategy scan .rolledBack settlement) platform image := by
  have pending : body ∈ (deployment.queue .workerCallback).pending :=
    (WorkQueue.pending_of_take? taken).mem_iff.mpr List.mem_cons_self
  obtain ⟨member, _, performed⟩ := refines.performsCallback pending readable returned
  have stepped := (Performs.callbackRolledBack member performed).step
  have accepted : platform.Accepts (.callback message scan .rolledBack) := trivial
  have moves := (Broker.moves_refl deployment.broker .merge
    (Exchange.echo, RoutingKey.merge)).publishAll rfl (published.toList.map mergeMessage.write)
  exact refines.follow (.rolledBack taken readable returned) (run_orchestrate accepted stepped)
    ⟨refines.agrees.db, refines.agrees.handlers, refines.agrees.threads, refines.agrees.trackers⟩
    refines.drawn
    { known := by decide
      moves := moves
      bodies := bodies_callback rfl rfl rfl
      consumed := fun _ impossible => by cases impossible
      caused := caused_of_mem (refines.carried _ _ pending)
      reports := fun _ _ => .other nofun nofun
      fresh := by simp
      restarted := restarted_of_db rfl }

private theorem followMerged {deployment : Deployment} {platform : Platform} {position : ℕ}
    (settlement : Settlement) {body : Json} {rest : WorkQueue ℕ Json}
    {message : EchoMergeMessage} (refines : Refines deployment platform)
    (taken : (deployment.queue .merge).take? position = some (body, rest))
    (readable : mergeMessage.read body = some message) :
    ∃ image, Follows deployment ((deployment.settle .merge rest settlement).publish .mergeCallback
      [MergeCallback.message.write (Image.mergeCallback message)]) (.merge position settlement)
        platform image := by
  have pending : body ∈ (deployment.queue .merge).pending :=
    (WorkQueue.pending_of_take? taken).mem_iff.mpr List.mem_cons_self
  obtain ⟨member, written⟩ := mem_of_read mergeMessage (refines.carried _ _ pending) readable
  have merged : Platform.machine.step platform (.merge message) =
      some { platform with
        mergeCallbacks := platform.mergeCallbacks ++ [Image.mergeCallback message] } :=
    if_pos member
  obtain ⟨gone, same, moves⟩ := deployment.moves_settle taken settlement (.echo, .mergeCallback)
  have agrees := refines.agrees.settle .merge rest settlement
  refine refines.follow (.merged taken readable) (.single merged)
    ⟨agrees.db, agrees.handlers, agrees.threads, agrees.trackers⟩ ?_
    { known := by decide
      moves := moves.publishAll (topology_settle _ _ _ _) _
      bodies := bodies_append ?_ ?_
      consumed := ?_
      caused := caused_of_mem (refines.carried _ _ pending)
      reports := fun body member => List.mem_singleton.mp member ▸ .merger taken readable
      fresh := by simp
      restarted := restarted_of_db (by cases settlement <;> rfl) }
  · intro other otherMember
    change other.processingId ∈ (settle _ _ _ _).drawn
    rw [drawn_settle]
    exact refines.drawn other otherMember
  · exact List.map_append ..
  · intro other different
    cases other with
    | mergeCallback => exact absurd rfl different
    | _ => rfl
  · intro other otherMember
    rw [same other otherMember, written]
    exact .merge rfl (List.mem_singleton_self _)

theorem Refines.followSettled {deployment : Deployment} {platform image : Platform}
    {event : Event} {following : Platform.Event} {name : QueueName} {position : ℕ} {body : Json}
    {rest : WorkQueue ℕ Json} {trackers : Tracking.Trackers}
    (refines : Refines deployment platform)
    (taken : (deployment.queue name).take? position = some (body, rest))
    (settlement : Settlement)
    (transition : Transition deployment event
      ({ deployment with trackers := trackers }.settle name rest settlement))
    (followed : Platform.machine.step platform following = some image)
    (imageEq : image = { platform with trackers := trackers })
    (consumed : Consumed deployment
      ({ deployment with trackers := trackers }.settle name rest settlement) event .mergeCallback []
      name body) :
    ∃ image, Follows deployment
      ({ deployment with trackers := trackers }.settle name rest settlement) event platform
        image := by
  subst imageEq
  obtain ⟨gone, same, moves⟩ := ({ deployment with trackers := trackers } : Deployment).moves_settle
    taken settlement (.echo, .mergeCallback)
  have stored : Agrees { deployment with trackers := trackers }
      { platform with trackers := trackers } :=
    ⟨refines.agrees.db, refines.agrees.handlers, refines.agrees.threads, rfl⟩
  refine refines.follow transition (.single followed) (stored.settle name rest settlement) ?_
    (exchanges_unsent (by decide) moves rfl (fun other member => same other member ▸ consumed)
      (by cases settlement <;> rfl))
  intro other otherMember
  rw [drawn_settle]
  exact refines.drawn other otherMember

private theorem run_track {platform : Platform} {message : Tracking.Message}
    {now : Tracking.Instant} {trackers : Tracking.Trackers} (offered : platform.Offered message)
    (returned : Tracking.receive platform.trackers { message := message, now := now } =
      .ok trackers) :
    Platform.machine.step platform (.track { message := message, now := now }) =
      some { platform with trackers := trackers } := by
  change platform.track _ = _
  unfold Platform.track Tracking.handle
  rw [if_pos offered, returned]

/-- What the tracker reads of the two messages that it shares with the orchestrator. -/
theorem tracker_read_start {messages : List EchoStartMessage} {body : Json}
    {payload : Tracking.EchoStartMessage}
    (published : body ∈ messages.map Start.message.write)
    (readable : Start.tracker body = some payload) :
    ∃ message ∈ messages, body = Start.message.write message ∧
      payload = Platform.trackerStart message := by
  obtain ⟨message, member, rfl⟩ := List.mem_map.mp published
  rw [tracker_start] at readable
  cases readable
  exact ⟨message, member, rfl, rfl⟩

private theorem tracker_read_workerCallback {messages : List EchoWorkerCallbackMessage}
    {body : Json} {payload : Tracking.EchoWorkerCallbackMessage}
    (published : body ∈ messages.map WorkerCallback.message.write)
    (readable : WorkerCallback.tracker body = some payload) :
    ∃ message ∈ messages, body = WorkerCallback.message.write message ∧
      payload = Platform.trackerCallback message := by
  obtain ⟨message, member, rfl⟩ := List.mem_map.mp published
  rw [tracker_workerCallback] at readable
  cases readable
  exact ⟨message, member, rfl, rfl⟩

private theorem tracker_read_mergeCallback {messages : List Image.EchoMergeCallbackMessage}
    {body : Json} {payload : MergeCallback.Received}
    (published : body ∈ messages.map MergeCallback.message.write)
    (readable : MergeCallback.tracker body = some payload) :
    ∃ message ∈ messages, body = MergeCallback.message.write message ∧
      payload = { processingId := message.processingId, imageURL := message.imageURL,
                  aoi := none } := by
  obtain ⟨message, member, rfl⟩ := List.mem_map.mp published
  rw [tracker_mergeCallback] at readable
  cases readable
  exact ⟨message, member, rfl, rfl⟩

theorem trackers_settle (deployment : Deployment) (name : QueueName) (rest : WorkQueue ℕ Json)
    (settlement : Settlement) :
    (deployment.settle name rest settlement).trackers = deployment.trackers := by
  cases settlement <;> rfl

theorem Refines.mem_bodies {deployment : Deployment} {platform : Platform}
    (refines : Refines deployment platform) {name : QueueName} {position : ℕ} {body : Json}
    {rest : WorkQueue ℕ Json}
    (taken : (deployment.queue name).take? position = some (body, rest)) :
    body ∈ platform.bodies name.source :=
  refines.carried _ _ ((WorkQueue.pending_of_take? taken).mem_iff.mpr List.mem_cons_self)

theorem Refines.followStill {deployment next : Deployment} {platform : Platform} {event : Event}
    (refines : Refines deployment platform) (transition : Transition deployment event next)
    (agrees : Agrees next platform) (drawn : next.drawn = deployment.drawn)
    (db : next.db = deployment.db)
    (moves : deployment.broker.Moves next.broker QueueName.start []
      (Exchange.echo, RoutingKey.start) []) :
    ∃ image, Follows deployment next event platform image := by
  apply refines.follow transition ((Machine.runs_nil _ _ _).mpr rfl) agrees
    (drawn ▸ refines.drawn)
  exact exchanges_unsent (by decide) moves rfl (List.forall_mem_nil _) db

private theorem followConnected {deployment : Deployment} {platform : Platform} {service : Service}
    {topology : EchoTopology} (refines : Refines deployment platform)
    (declared : deployment.broker.topology.declare? service.declaration = some topology) :
    ∃ image, Follows deployment
      { deployment with broker := { deployment.broker with topology := topology } }
      (.connect service) platform image := by
  have added := ((Topology.declare?_eq_some_iff _ _ _).mp declared).2
  have routes : ∀ address queue, deployment.broker.topology.Routes address queue →
      topology.Routes address queue := by
    intro address queue routed
    rw [added, Topology.routes_add]
    exact Or.inl routed
  exact refines.followStill (.connected declared)
    ⟨refines.agrees.db, refines.agrees.handlers, refines.agrees.threads, refines.agrees.trackers⟩
    rfl rfl (Broker.moves_of_pending _ _ routes (fun _ => List.Perm.refl _))

private theorem followPosted {deployment : Deployment} {platform : Platform} {uuid : String}
    {body : Controller.EchoRequest} {entity : Controller.EntityModel} {message : EchoStartMessage}
    (refines : Refines deployment platform)
    (echoed : Controller.ProcessingController.echo uuid body = .ok (entity, message))
    (fresh : uuid ∉ deployment.drawn) :
    ∃ image, Follows deployment
      ({ deployment with drawn := deployment.drawn ++ [uuid] }.publish .start
        [Start.message.write message]) (.post uuid body) platform image := by
  have own : message.processingId = uuid :=
    ((Controller.ProcessingController.echo_eq_ok_iff _ _ _ _).mp echoed).2.2.1
  have new : ∀ earlier ∈ platform.startMessages,
      earlier.processingId ≠ message.processingId := by
    intro earlier member same
    apply fresh
    rw [← own, ← same]
    exact refines.drawn earlier member
  have requests : ∀ other ∈ [Start.message.write message],
      Requested deployment (.post uuid body) other := by
    intro other member
    rw [List.mem_singleton.mp member]
    exact ⟨uuid, body, entity, message, rfl, echoed, fresh, rfl⟩
  have requested : Platform.machine.step platform (.request message) =
      some { platform with startMessages := platform.startMessages ++ [message] } :=
    if_pos new
  have moves := (Broker.moves_refl deployment.broker .start
    (Exchange.echo, RoutingKey.start)).publishAll rfl [Start.message.write message]
  refine refines.follow (.posted echoed fresh) (.single requested)
    ⟨refines.agrees.db, refines.agrees.handlers, refines.agrees.threads, refines.agrees.trackers⟩ ?_
    { known := by decide
      moves := moves
      bodies := bodies_append ?_ ?_
      consumed := fun _ impossible => by cases impossible
      caused := fun _ => Or.inl ⟨_, echoed⟩
      reports := fun _ _ => .other nofun nofun
      fresh := fun _ => ⟨List.nodup_singleton _, requests⟩
      restarted := restarted_of_db rfl }
  · intro other member
    rcases List.mem_append.mp member with earlier | added
    · exact List.mem_append_left _ (refines.drawn other earlier)
    · rw [List.mem_singleton.mp added, own]
      exact List.mem_append_right _ (List.mem_singleton_self uuid)
  · exact List.map_append ..
  · intro other different
    cases other with
    | start => exact absurd rfl different
    | _ => rfl

/-! ### Steps of the tracker -/

private theorem followStartTracked {deployment : Deployment} {platform : Platform} {position : ℕ}
    {now : Tracking.Instant} (settlement : Settlement) {body : Json} {rest : WorkQueue ℕ Json}
    {payload : Tracking.EchoStartMessage} {trackers : Tracking.Trackers}
    (refines : Refines deployment platform)
    (taken : (deployment.queue .trackerStart).take? position = some (body, rest))
    (readable : Start.tracker body = some payload)
    (returned : Tracking.Listener.receiveStartMessage deployment.trackers payload now =
      .ok trackers) :
    ∃ image, Follows deployment
      ({ deployment with trackers := trackers }.settle .trackerStart rest settlement)
      (.trackStart position now settlement) platform image := by
  obtain ⟨message, member, written, rfl⟩ :=
    tracker_read_start (refines.mem_bodies taken) readable
  have offered : platform.Offered (.start (Platform.trackerStart message)) :=
    List.mem_map_of_mem member
  have tracked : Tracking.receive platform.trackers
      { message := .start (Platform.trackerStart message), now := now } = .ok trackers := by
    rw [refines.agrees.trackers]
    exact returned
  apply refines.followSettled taken settlement (.startTracked taken readable returned)
    (run_track offered tracked) rfl
  rw [written]
  apply Consumed.trackerStart
  rw [trackers_settle]
  exact returned

private theorem followWorkerTracked {deployment : Deployment} {platform : Platform} {position : ℕ}
    {now : Tracking.Instant} (settlement : Settlement) {body : Json} {rest : WorkQueue ℕ Json}
    {payload : Tracking.EchoWorkerCallbackMessage} {trackers : Tracking.Trackers}
    (refines : Refines deployment platform)
    (taken : (deployment.queue .trackerWorkerCallback).take? position = some (body, rest))
    (readable : WorkerCallback.tracker body = some payload)
    (returned : Tracking.Listener.receiveWorkerCallbackMessage deployment.trackers payload now =
      .ok trackers) :
    ∃ image, Follows deployment
      ({ deployment with trackers := trackers }.settle .trackerWorkerCallback rest settlement)
      (.trackWorkerCallback position now settlement) platform image := by
  obtain ⟨message, member, written, rfl⟩ :=
    tracker_read_workerCallback (refines.mem_bodies taken) readable
  have offered : platform.Offered (.workerCallback (Platform.trackerCallback message)) :=
    List.mem_map_of_mem member
  have tracked : Tracking.receive platform.trackers
      { message := .workerCallback (Platform.trackerCallback message), now := now } =
        .ok trackers := by
    rw [refines.agrees.trackers]
    exact returned
  apply refines.followSettled taken settlement (.workerTracked taken readable returned)
    (run_track offered tracked) rfl
  rw [written]
  apply Consumed.trackerWorkerCallback
  rw [trackers_settle]
  exact returned

/-- An area for the payload of the platform's tracker, whose listener reads none. -/
def noArea : Aoi :=
  { crs := .epsg4326, upperLeft := none, upperRight := none, lowerLeft := none, lowerRight := none }

private theorem followMergeTracked {deployment : Deployment} {platform : Platform} {position : ℕ}
    {now : Tracking.Instant} (settlement : Settlement) {body : Json} {rest : WorkQueue ℕ Json}
    {payload : MergeCallback.Received} (refines : Refines deployment platform)
    (taken : (deployment.queue .trackerMergeCallback).take? position = some (body, rest))
    (readable : MergeCallback.tracker body = some payload) :
    ∃ image, Follows deployment
      ({ deployment with
          trackers := Tracking.TrackerService.finishProcessing deployment.trackers
            payload.processingId now
        }.settle .trackerMergeCallback rest settlement)
      (.trackMergeCallback position now settlement) platform image := by
  obtain ⟨message, member, written, rfl⟩ :=
    tracker_read_mergeCallback (refines.mem_bodies taken) readable
  have offered : platform.Offered (.mergeCallback
      { processingId := message.processingId, imageURL := message.imageURL, aoi := noArea }) :=
    ⟨message, member, rfl, rfl⟩
  have tracked : Tracking.receive platform.trackers
      { message := .mergeCallback { processingId := message.processingId,
                                    imageURL := message.imageURL, aoi := noArea }, now := now } =
      .ok (Tracking.TrackerService.finishProcessing deployment.trackers message.processingId
        now) := by
    rw [refines.agrees.trackers]
    rfl
  apply refines.followSettled taken settlement (.mergeTracked taken readable)
    (run_track offered tracked) rfl
  subst written
  exact .trackerMergeCallback rfl taken (trackers_settle _ _ _ _)

/-! ### Every step -/

theorem Transition.follows {deployment next : Deployment} {platform : Platform} {event : Event}
    (transition : Transition deployment event next) (refines : Refines deployment platform)
    (sound : Platform.Sound platform) :
    ∃ image, Follows deployment next event platform image := by
  cases transition with
  | connected declared => exact followConnected refines declared
  | posted echoed fresh => exact followPosted refines echoed fresh
  | thrown =>
      have thrown : Transition deployment event deployment := .thrown
      exact refines.followStill thrown refines.agrees rfl rfl (Broker.moves_refl _ _ _)
  | rejected taken unreadable =>
      rw [reads_of_mem_bodies (refines.mem_bodies taken)] at unreadable
      cases unreadable
  | received idle free taken readable => exact followReceived refines sound idle free taken readable
  | advanced transaction stepped => exact followAdvanced refines sound transaction stepped
  | acknowledged stepped => exact followAcknowledged refines sound stepped
  | stopped => exact followStopped refines sound _
  | began free unheld taken readable => exact followBegan refines free unheld taken readable
  | reported running => exact followReported refines sound _ running
  | @failed thread =>
      have failed : Platform.machine.step platform (.fail thread) =
          some (platform.setThread thread (deployment.threads thread).release) := by
        rw [← refines.agrees.threads]
        rfl
      exact followGivenBack refines thread _ .failed failed
  | @restarted thread =>
      have restarted : Platform.machine.step platform (.restart thread) =
          some (platform.setThread thread .new) := rfl
      exact followGivenBack refines thread _ .restarted restarted
  | @lost name consumer =>
      exact refines.followStill .lost
        ⟨refines.agrees.db, refines.agrees.handlers, refines.agrees.threads,
          refines.agrees.trackers⟩ rfl rfl
        ((Broker.moves_refl _ _ _).setQueue (WorkQueue.pending_giveBack _ _))
  | calledBack taken readable returned =>
      exact followCalledBack _ refines taken readable returned
  | rolledBack taken readable returned =>
      exact followRolledBack refines taken readable returned
  | merged taken readable => exact followMerged _ refines taken readable
  | @mergeHandled position settlement body rest message taken readable =>
      obtain ⟨member, _⟩ := mem_of_read MergeCallback.message (refines.mem_bodies taken) readable
      have handled : Platform.machine.step platform (.mergeCallback message) = some platform :=
        if_pos member
      have same : platform = { platform with trackers := deployment.trackers } := by
        rw [← refines.agrees.trackers]
      exact refines.followSettled taken settlement (.mergeHandled taken readable) handled same
        .mergeCallback
  | startTracked taken readable returned =>
      exact followStartTracked _ refines taken readable returned
  | workerTracked taken readable returned =>
      exact followWorkerTracked _ refines taken readable returned
  | mergeTracked taken readable => exact followMergeTracked _ refines taken readable

theorem sound_of_runs {events : List Platform.Event} {platform image : Platform}
    (run : Platform.machine.Runs platform events image) (sound : Platform.Sound platform) :
    Platform.Sound image :=
  run.invariant (fun _ _ _ holds stepped => (Platform.step_transition stepped).sound holds) sound

theorem Refines.runs {events : List Event} {deployment next : Deployment} {platform : Platform}
    (refines : Refines deployment platform) (sound : Platform.Sound platform)
    (reached : machine.Runs deployment events next) :
    ∃ followed image, Platform.machine.Runs platform followed image ∧
      Refines next image ∧ Platform.Sound image := by
  have matched : ∀ state event next image,
      (Refines state image ∧ Platform.Sound image) → machine.step state event = some next →
      ∃ followed nextImage, Platform.machine.Runs image followed nextImage ∧
        (Refines next nextImage ∧ Platform.Sound nextImage) := by
    rintro state event next image ⟨refines, sound⟩ stepped
    obtain ⟨nextImage, follows⟩ := (step_transition stepped).follows refines sound
    obtain ⟨followed, run⟩ := follows.run
    exact ⟨followed, nextImage, run, follows.refines, sound_of_runs run sound⟩
  exact reached.simulated matched ⟨refines, sound⟩

theorem refines_of_runs {events : List Event} {deployment : Deployment}
    (reached : machine.Runs initial events deployment) :
    ∃ followed platform, Platform.machine.Runs Platform.initial followed platform ∧
      Refines deployment platform ∧ Platform.Sound platform :=
  refines_initial.runs Platform.sound_initial reached

theorem pending_deadLetter {deployment : Deployment} {platform : Platform}
    (refines : Refines deployment platform) : (deployment.queue .deadLetter).pending = [] := by
  apply List.eq_nil_iff_forall_not_mem.mpr
  intro body member
  cases refines.carried .deadLetter body member

/-- In every run of the deployed services the state of each of them is the one that a run of
the platform reaches; what is pending in a queue was published with its key and can be read
by its listener, so no message ever becomes a dead letter. -/
theorem deployment_refines_platform {events : List Event} {deployment : Deployment}
    (reached : machine.Runs initial events deployment) :
    ∃ followed platform, Platform.machine.Runs Platform.initial followed platform ∧
      platform.orchestrator.db = deployment.db ∧
      platform.orchestrator.handlers = deployment.handlers ∧
      platform.threads = deployment.threads ∧
      platform.trackers = deployment.trackers ∧
      (∀ name, ∀ body ∈ (deployment.queue name).pending,
        body ∈ platform.bodies name.source ∧ reads name body = true) ∧
      (deployment.queue .deadLetter).pending = [] := by
  obtain ⟨followed, platform, run, refines, _⟩ := refines_of_runs reached
  refine ⟨followed, platform, run, refines.agrees.db, refines.agrees.handlers,
    refines.agrees.threads, refines.agrees.trackers, ?_, pending_deadLetter refines⟩
  intro name body member
  have published := refines.carried name body member
  exact ⟨published, reads_of_mem_bodies published⟩

namespace Sample

open Orchestrator.Sample (startMessage)

/-- An image of one tile. The first acknowledgement of its start message is lost with the
channel, so that a second handler takes the message again. -/
def redelivered : List Event :=
  [.connect .orchestrator, .connect .worker, .connect .merger, .connect .tracker,
    .post "p" (Controller.ProcessingController.bodyOf startMessage), .trackStart 0 5 .acknowledged,
    .receive 0 0 .none, .createOrchestrator 0,
    .createWorkers 0 .none (fun _ => "w") .insertionOrder, .startEchoWorker 0 .none .committed,
    .lose .start 0, .acknowledge 0, .receive 1 0 .none, .createOrchestrator 1,
    .createWorkers 1 .none (fun _ => "v") .insertionOrder, .startEchoWorker 1 .none .committed,
    .acknowledge 1, .work 0 0, .report 0 .acknowledged]

end Sample

theorem deployment_refines_platform_redelivered :
    ∃ deployment, machine.Runs initial Sample.redelivered deployment ∧
      ∃ followed platform, Platform.machine.Runs Platform.initial followed platform ∧
        platform.orchestrator.db = deployment.db ∧
        (deployment.queue .deadLetter).pending = [] := by
  have enabled : (machine.run initial Sample.redelivered).isSome = true := by
    decide +kernel
  obtain ⟨deployment, reached⟩ := Option.isSome_iff_exists.mp enabled
  obtain ⟨followed, platform, run, db, _, _, _, _, dead⟩ := deployment_refines_platform reached
  exact ⟨deployment, reached, followed, platform, run, db, dead⟩

end Deployment

end EchoProcessing
