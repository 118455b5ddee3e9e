import Dinkster.Caches.Values

/-! One node type with several implementations. The engine has selected the arm; the dispatcher
follows the selection and checks on the way in and out that every resident reference belongs to
the selected arm's session and body. -/
namespace Dinkster.Dispatch
open Caches (MetaValue Envelope)

variable {Obj Domain : Type}

abbrev Value (Obj : Type) := Caches.Value Obj Unit

/-- One resource reference with its raw owner and, where the envelope has one, producer arm. -/
structure Reference (Obj : Type) where
  resourceId : String
  owner : MetaValue Obj
  producer : Option (MetaValue Obj)

def references (e : Envelope Obj Unit) : List (Reference Obj) :=
  e.localResourceIds.map fun rid =>
    ⟨rid,(e.info.get? "resourceOwner").getD .none,e.info.get? "resourceProducerArm"⟩

/-- `value_resource_provenance_refs` -/
def provenanceRefs (v : Value Obj) : List (Reference Obj) :=
  (Caches.iterValueTree v).flatMap references

/-- The envelope stands for a resource that this session holds. -/
def heldBy (owner : String) (e : Envelope Obj Unit) : Bool :=
  ((e.info.get? "resourceId").bind Caches.textOf).isSome &&
    (e.info.get? "resourceOwner").bind Caches.textOf == some owner

def stampArm (owner arm : String) (e : Envelope Obj Unit) : Envelope Obj Unit :=
  if heldBy owner e then { e with info := e.info.set "resourceProducerArm" (.str arm) } else e

mutual

/-- `_qualify_producer_arm`. A container whose children did not change keeps its payload, which
is the same as building it again. -/
def qualifyProducerArm (owner arm : String) : Value Obj → Value Obj
  | .leaf e content => .leaf (stampArm owner arm e) content
  | .list e children => .list (stampArm owner arm e) (qualifyChildren owner arm children)
  | .tuple e children => .tuple (stampArm owner arm e) (qualifyChildren owner arm children)

def qualifyChildren (owner arm : String) : List (Value Obj) → List (Value Obj)
  | [] => []
  | child :: rest => qualifyProducerArm owner arm child :: qualifyChildren owner arm rest

end

structure NodeError where
  nodeId : String
  nodeType : String
  message : String

structure Invocation (Obj : Type) where
  nodeId : String
  nodeType : String
  inputs : List (String × Value Obj)
  executor : Option String := none
  arm : Option String := none

structure InvocationResult (Obj : Type) where
  outputs : Option (List (String × Value Obj)) := none
  error : Option NodeError := none

/-- A body behind a worker boundary: what it answers is its own affair. -/
abbrev Body (Obj : Type) := Invocation Obj → InvocationResult Obj

structure ArmWorker where
  instanceToken : Option String
  arm : Option String
  producerArm : Option String := none

def ArmWorker.invoke (w : ArmWorker) (worker : Body Obj) : Body Obj := fun invocation =>
  let result := worker { invocation with arm := w.arm }
  match result.outputs,w.producerArm,w.instanceToken with
  | some outputs,some producerArm,some owner =>
    let qualified := outputs.map fun (name,value) =>
      (name,qualifyProducerArm owner producerArm value)
    { result with outputs := some qualified }
  | _,_,_ => result

/-- What `DispatchWorker.__init__` accepts: every producer is mapped to an arm, the arms to
themselves, and the default of an arm is an arm of the same domain. -/
structure DispatchWorker (Domain : Type) where
  arms : List String
  armDomains : Dict String Domain
  defaultArms : Dict String String
  producerTargets : Dict String String
  nonempty : arms ≠ []
  named : ∀ e ∈ producerTargets.entries, e.2 ∈ arms
  affinity : ∀ arm ∈ arms, producerTargets.get? arm = some arm
  domains : (∀ arm ∈ armDomains.keys, arm ∈ arms) ∧ ∀ arm ∈ arms, arm ∈ armDomains.keys
  defaults : (∀ arm ∈ defaultArms.keys, arm ∈ arms) ∧ ∀ arm ∈ arms, arm ∈ defaultArms.keys
  sameDomain : ∀ e ∈ armDomains.entries, ∀ default_ ∈ defaultArms.get? e.1,
    default_ ∈ arms ∧ armDomains.get? default_ = some e.2

variable [DecidableEq Domain]

def DispatchWorker.make (arms : List String) (armDomains : Dict String Domain)
    (defaultArms : Dict String String) (producerTargets : Option (Dict String String)) :
    Except String (DispatchWorker Domain) :=
  if nonempty : arms = [] then .error "DispatchWorker needs at least one arm"
  else
    let targets := (Dict.ofList (arms.map fun arm => (arm,arm))).update
      (producerTargets.getD .empty)
    if named : ¬ ∀ e ∈ targets.entries, e.2 ∈ arms then
      .error "DispatchWorker producer_targets must name executable arms"
    else if affinity : ¬ ∀ arm ∈ arms, targets.get? arm = some arm then
      .error "DispatchWorker producer_targets must preserve executable arm affinity"
    else if domains : ¬ ((∀ arm ∈ armDomains.keys, arm ∈ arms) ∧
        ∀ arm ∈ arms, arm ∈ armDomains.keys) then
      .error "DispatchWorker arm_domains must exactly match arms"
    else if defaults : ¬ ((∀ arm ∈ defaultArms.keys, arm ∈ arms) ∧
        ∀ arm ∈ arms, arm ∈ defaultArms.keys) then
      .error "DispatchWorker default_arms must exactly match arms"
    else if sameDomain : ¬ ∀ e ∈ armDomains.entries, ∀ default_ ∈ defaultArms.get? e.1,
        default_ ∈ arms ∧ armDomains.get? default_ = some e.2 then
      .error "DispatchWorker default_arms must name one arm in each domain"
    else .ok ⟨arms,armDomains,defaultArms,targets,nonempty,not_not.mp named,not_not.mp affinity,
      not_not.mp domains,not_not.mp defaults,not_not.mp sameDomain⟩

inductive Direction
  | input
  | output

def Direction.word : Direction → String
  | input => "input"
  | output => "output"

/-- Why a reference is refused. -/
inductive Problem (Obj : Type)
  | noOwner
  | dead (owner : String)
  | foreign
  | unknownProducer (producer : MetaValue Obj)
  | affinity (producerArm : String)

def Problem.message (quote : String → String) (quoteValue : MetaValue Obj → String)
    (direction : Direction) (name target rid : String) (problem : Problem Obj) : String :=
  direction.word ++ " '" ++ name ++ "' references resource " ++ quote rid ++
    match problem with
    | noOwner => " with no owner token; dispatched node types require " ++
        "owner-stamped resident envelopes"
    | dead owner => " owned by " ++ quote owner ++ ", which no live arm holds - it " ++
        "belongs to an earlier worker lifetime or a process outside this dispatcher"
    | foreign => " owned by another worker session, but the selection targets arm '" ++
        target ++ "' - resident state cannot cross residency domains"
    | unknownProducer producer => " with malformed or unknown producer arm " ++ quoteValue producer
    | affinity producerArm => " produced by arm '" ++ producerArm ++
        "', but the selection targets arm '" ++ target ++ "' - producer-arm affinity failed"

namespace DispatchWorker

variable (d : DispatchWorker Domain)

/-- The arm that the reference's producer maps to; without a stamp it is the default body of the
target's session. -/
def producerArm (target : String) (ref : Reference Obj) : Option String :=
  match ref.producer with
  | some (.str producer) => d.producerTargets.get? producer
  | some _ => none
  | none => d.defaultArms.get? target

def producerProblem (target : String) (ref : Reference Obj) : Option (Problem Obj) :=
  match d.producerArm target ref with
  | none => some (.unknownProducer (ref.producer.getD .none))
  | some producerArm => if producerArm ≠ target then some (.affinity producerArm) else none

def referenceProblem (resolveOwner : String → Option Domain) (target : String)
    (requireProducerArm : Bool) (ref : Reference Obj) : Option (Problem Obj) :=
  match Caches.textOf ref.owner with
  | none => some .noOwner
  | some owner => match resolveOwner owner with
    | none => some (.dead owner)
    | some domain =>
      if d.armDomains.get? target ≠ some domain then some .foreign
      else if requireProducerArm then d.producerProblem target ref else none

def ownershipProblem (resolveOwner : String → Option Domain) (values : List (String × Value Obj))
    (target : String) (requireProducerArm : Bool) : Option (String × String × Problem Obj) :=
  (values.flatMap fun (name,value) => (provenanceRefs value).map fun ref => (name,ref)).findSome?
    fun (name,ref) => (d.referenceProblem resolveOwner target requireProducerArm ref).map
      fun problem => (name,ref.resourceId,problem)

/-- `check_lazy_status` asks the body of the first arm, whatever arm produced the inputs. -/
def lazyProblem (resolveOwner : String → Option Domain) (available : List (String × Value Obj)) :
    Option (String × String × Problem Obj) :=
  d.ownershipProblem resolveOwner available (d.arms.head d.nonempty) false

/-- What the dispatcher did: the arm body that ran with its invocation, and the result. -/
structure Outcome (Obj : Type) where
  invoked : Option (String × Invocation Obj)
  result : InvocationResult Obj

def refuse (invocation : Invocation Obj) (message : String) : InvocationResult Obj :=
  ⟨none,some ⟨invocation.nodeId,invocation.nodeType,message⟩⟩

def deliver (quote : String → String) (quoteValue : MetaValue Obj → String)
    (resolveOwner : String → Option Domain) (target : String) (invocation : Invocation Obj)
    (result : InvocationResult Obj) : InvocationResult Obj :=
  match result.outputs with
  | none => result
  | some outputs => match d.ownershipProblem resolveOwner outputs target true with
    | some (name,rid,problem) =>
      refuse invocation (problem.message quote quoteValue .output name target rid)
    | none => result

/-- A session may end while the body runs, so owners are resolved anew for the outputs. -/
def invoke (quote : String → String) (quoteValue : MetaValue Obj → String)
    (resolveBefore resolveAfter : String → Option Domain) (bodies : String → Body Obj)
    (invocation : Invocation Obj) : Outcome Obj :=
  match invocation.executor with
  | none => ⟨none,refuse invocation ("invocation reached the dispatcher without an execution " ++
      "selection; the engine's plan_execution hook must be enrolled for this node type")⟩
  | some target =>
    if target ∉ d.arms then
      ⟨none,refuse invocation ("execution selection names unknown arm " ++ quote target ++
        " (arms: " ++ ", ".intercalate (d.arms.mergeSort (fun a b => decide (a ≤ b))) ++ ")")⟩
    else match d.ownershipProblem resolveBefore invocation.inputs target true with
      | some (name,rid,problem) =>
        ⟨none,refuse invocation (problem.message quote quoteValue .input name target rid)⟩
      | none => ⟨some (target,invocation),
          d.deliver quote quoteValue resolveAfter target invocation (bodies target invocation)⟩

end DispatchWorker

/-- One invocation of a run, with what the worker of the session answers to it. -/
structure Call (Obj : Type) where
  invocation : Invocation Obj
  reply : Body Obj

/-- Arms over one live session: the same worker under every arm, and a token that resolves. -/
structure Session (Domain : Type) where
  token : String
  domain : Domain
  workers : String → ArmWorker
  resolveOwner : String → Option Domain
  shared : ∀ arm, (workers arm).instanceToken = some token
  live : resolveOwner token = some domain

def Session.outcome (session : Session Domain) (d : DispatchWorker Domain)
    (quote : String → String) (quoteValue : MetaValue Obj → String) (call : Call Obj) :
    DispatchWorker.Outcome Obj :=
  d.invoke quote quoteValue session.resolveOwner session.resolveOwner
    (fun arm => (session.workers arm).invoke call.reply) call.invocation

end Dinkster.Dispatch
