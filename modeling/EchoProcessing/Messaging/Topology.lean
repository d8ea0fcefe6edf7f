/-
What the services declare at the broker.

Each consumer in Java declares its exchanges and the queues that it listens to, and binds
them; the controller only publishes. The worker in C++ binds its queue to an exchange that
it does not declare. Both workers declare the same queue, one with arguments for dead letters
and one without, and the broker only takes the first.
-/

import EchoProcessing.Library.Broker
import EchoProcessing.Library.Machine

namespace EchoProcessing.Messaging

inductive Exchange where
  | echo  -- exchange.processing.echo
  | deadLetter  -- exchange.processing.x-dead-letter
deriving DecidableEq, Repr

inductive RoutingKey where
  | start  -- processing.echo.start
  | worker  -- processing.echo.worker
  | workerCallback  -- processing.echo.worker.callback
  | merge  -- processing.echo.merge
  | mergeCallback  -- processing.echo.merge.callback
  | deadLetter  -- processing.x-dead-letter
  | echo  -- processing.echo, the key of echo-worker-cpp
deriving DecidableEq, Repr

inductive QueueName where
  | start  -- queue.processing.echo.start
  | worker  -- queue.processing.echo.worker
  | workerCallback  -- queue.processing.echo.worker.callback
  | merge  -- queue.processing.echo.merge
  | mergeCallback  -- queue.processing.echo.merge.callback
  | trackerStart  -- queue.tracker.echo.start
  | trackerWorkerCallback  -- queue.tracker.echo.worker.callback
  | trackerMergeCallback  -- queue.tracker.echo.merge.callback
  | deadLetter  -- queue.processing.x-dead-letter
deriving DecidableEq, Repr

/-- The arguments `x-dead-letter-exchange` and `x-dead-letter-routing-key`. -/
structure QueueArguments where
  deadLetterExchange : Option Exchange
  deadLetterRoutingKey : Option RoutingKey
deriving DecidableEq, Repr

def QueueArguments.none : QueueArguments :=
  { deadLetterExchange := .none, deadLetterRoutingKey := .none }

/-- Where a message is published: an exchange and a routing key. -/
abbrev Address := Exchange × RoutingKey

abbrev EchoDeclaration := Declaration Exchange RoutingKey QueueName QueueArguments

abbrev EchoTopology := Topology Exchange RoutingKey QueueName QueueArguments

inductive Service where
  | controller
  | orchestrator
  | worker
  | workerCpp
  | merger
  | tracker
deriving DecidableEq, Repr

namespace MessagingConfiguration

/-- The exchange, and `QueueBuilder.durable(name).build()` and a binding for each queue. -/
def durable (bindings : List (RoutingKey × QueueName))
    (distinct : (bindings.map Prod.snd).Nodup) : EchoDeclaration :=
  { exchanges := [.echo]
    queues := bindings.map (fun binding => (binding.2, .none))
    bindings := bindings.map (fun binding => ((.echo, binding.1), binding.2))
    distinct := by
      rw [List.map_map]
      exact distinct }

def controller : EchoDeclaration :=
  { exchanges := [], queues := [], bindings := [], distinct := by decide }

def orchestrator : EchoDeclaration :=
  durable
    [(.start, .start), (.workerCallback, .workerCallback), (.mergeCallback, .mergeCallback)]
    (by decide)

def worker : EchoDeclaration :=
  { exchanges := [.echo, .deadLetter]
    queues :=
      [(.worker,
          { deadLetterExchange := some .deadLetter, deadLetterRoutingKey := some .deadLetter }),
        (.deadLetter, .none)]
    bindings :=
      [((.echo, .worker), .worker), ((.deadLetter, .deadLetter), .deadLetter)]
    distinct := by decide }

def merger : EchoDeclaration :=
  durable [(.merge, .merge)] (by decide)

def tracker : EchoDeclaration :=
  durable
    [(.start, .trackerStart), (.workerCallback, .trackerWorkerCallback),
      (.mergeCallback, .trackerMergeCallback)]
    (by decide)

end MessagingConfiguration

/-- `Listener::init` of `echo-worker-cpp` declares its queue with an empty table of
arguments, and no exchange. -/
def Listener.init : EchoDeclaration :=
  { exchanges := []
    queues := [(.worker, .none)]
    bindings := [((.echo, .echo), .worker)]
    distinct := by decide }

def Service.declaration : Service → EchoDeclaration
  | .controller => MessagingConfiguration.controller
  | .orchestrator => MessagingConfiguration.orchestrator
  | .worker => MessagingConfiguration.worker
  | .workerCpp => Listener.init
  | .merger => MessagingConfiguration.merger
  | .tracker => MessagingConfiguration.tracker

/-- The keys that a service publishes with, always to the echo exchange. -/
def Service.publishes : Service → List RoutingKey
  | .controller => [.start]
  | .orchestrator => [.worker, .merge]
  | .worker => [.workerCallback]
  | .workerCpp => []
  | .merger => [.mergeCallback]
  | .tracker => []

/-- Only the two implementations of the worker contradict each other. -/
theorem compatible_iff (left right : Service) :
    left.declaration.Compatible right.declaration ↔
      ¬(left = .worker ∧ right = .workerCpp) ∧ ¬(left = .workerCpp ∧ right = .worker) := by
  cases left <;> cases right <;> decide

private theorem all_compatible_iff (services : List Service) :
    (∀ left ∈ services, ∀ right ∈ services, left.declaration.Compatible right.declaration) ↔
      ¬(Service.worker ∈ services ∧ Service.workerCpp ∈ services) := by
  simp only [compatible_iff]
  constructor
  · rintro compatible ⟨java, cpp⟩
    exact (compatible _ java _ cpp).1 ⟨rfl, rfl⟩
  · intro apart left leftMember right rightMember
    constructor
    · rintro ⟨rfl, rfl⟩
      exact apart ⟨leftMember, rightMember⟩
    · rintro ⟨rfl, rfl⟩
      exact apart ⟨rightMember, leftMember⟩

/-- The services that declare the exchange of all messages. -/
def Service.declaringEcho : List Service :=
  [.orchestrator, .worker, .merger, .tracker]

/-- Only the worker in C++ depends on an exchange that others declare. -/
theorem bindable_iff (earlier : List Service) (service : Service) :
    Topology.Bindable Service.declaration earlier service ↔
      (service = .workerCpp → ∃ other ∈ earlier, other ∈ Service.declaringEcho) := by
  have declares : ∀ other : Service,
      Exchange.echo ∈ other.declaration.exchanges ↔ other ∈ Service.declaringEcho := by
    intro other
    cases other <;> decide
  have itself : service ≠ .workerCpp → ∀ binding ∈ service.declaration.bindings,
      binding.1.1 ∈ service.declaration.exchanges := by
    cases service <;> decide
  constructor
  · rintro bindable rfl
    obtain ⟨other, member, declared⟩ := bindable ((.echo, .echo), .worker) (by decide)
    rw [declares] at declared
    rcases List.mem_append.mp member with before | last
    · exact ⟨other, before, declared⟩
    · rw [List.mem_singleton.mp last] at declared
      exact absurd declared (by decide)
  · intro preceded binding member
    by_cases cpp : service = .workerCpp
    · obtain ⟨other, before, declared⟩ := preceded cpp
      subst cpp
      obtain rfl := List.mem_singleton.mp member
      exact ⟨other, List.mem_append_left _ before, (declares other).mpr declared⟩
    · exact ⟨service, List.mem_append_right _ (List.mem_singleton_self service),
        itself cpp binding member⟩

/-- Which queue of which service the messages of a key are for. -/
def wiring : List (RoutingKey × QueueName × Service) :=
  [(.start, .start, .orchestrator), (.start, .trackerStart, .tracker),
    (.worker, .worker, .worker),
    (.workerCallback, .workerCallback, .orchestrator),
    (.workerCallback, .trackerWorkerCallback, .tracker),
    (.merge, .merge, .merger),
    (.mergeCallback, .mergeCallback, .orchestrator),
    (.mergeCallback, .trackerMergeCallback, .tracker)]

theorem mem_bindings_iff_wiring {publisher : Service} {key : RoutingKey}
    (published : key ∈ publisher.publishes) (service : Service) (queue : QueueName) :
    ((Exchange.echo, key), queue) ∈ service.declaration.bindings ↔
      (key, queue, service) ∈ wiring := by
  cases publisher <;> simp only [Service.publishes, List.mem_cons, List.not_mem_nil, or_false]
    at published <;> rcases published with rfl | rfl <;> cases service <;> cases queue <;> decide

/-- Services can connect in any order, and any of them again, unless both implementations of
the worker are among them or the one in C++ comes before everyone who declares the exchange.
A published message then reaches the queues of those of its consumers that have connected,
and is lost for the others. -/
theorem connected_services_receive (services : List Service) :
    ((∃ topology, (Topology.connection Service.declaration).Runs Topology.empty services
        topology) ↔
      ¬(Service.worker ∈ services ∧ Service.workerCpp ∈ services) ∧
        ∀ before after, services = before ++ Service.workerCpp :: after →
          ∃ other ∈ before, other ∈ Service.declaringEcho) ∧
    ∀ topology, (Topology.connection Service.declaration).Runs Topology.empty services topology →
      ∀ publisher : Service, ∀ key ∈ publisher.publishes, ∀ queue,
        topology.Routes (Exchange.echo, key) queue ↔
          ∃ service ∈ services, (key, queue, service) ∈ wiring := by
  constructor
  · rw [Topology.runs_iff_compatible, all_compatible_iff]
    apply and_congr_right
    intro _
    simp only [bindable_iff]
    constructor
    · exact fun bindable before after split => bindable before _ after split rfl
    · rintro preceded before service after split rfl
      exact preceded before after split
  · intro topology reached publisher key published queue
    rw [(Topology.declaredBy_of_runs reached).routes]
    simp only [mem_bindings_iff_wiring published]

end EchoProcessing.Messaging
