import Dinkster.Engine.NodeInputs
import Dinkster.Lib.Canonical

/-! The demand loop of a node with lazy inputs. Every round resolves the inputs that are visible so
far and asks the node which of its connected lazy inputs it wants next. -/
namespace Dinkster.LazyDemand
open Canonical NodeInputs
export NodeInputs (GraphNode)

structure SelectorSpec where
  input : String
  onFalse : String
  onTrue : String
  different : onFalse ≠ onTrue

structure NodeSchema (Ty Raw : Type) where
  inputs : List (InputSpec Ty Raw)
  outputs : List Ty
  selector : Option SelectorSpec
  distinct : (inputs.map (·.id)).Nodup

/-- What a lazy hook may put in its reply: names, and objects known by their `repr`. -/
inductive Item
  | name (text : String)
  | object (repr : String)

inductive LazyStatusResult
  | requested (items : List Item)
  | error (error : NodeError)

structure LazyStatusInvocation (Ty Raw Obj : Type) where
  nodeId : String
  nodeType : String
  availableInputs : Dict String (Value Obj)
  connectedUndemandedInputs : List String
  effectiveSchema : NodeSchema Ty Raw

/-- What the types of a node's values are read from before it resolves its inputs. -/
inductive Candidate (Raw Obj : Type)
  | value (value : Value Obj)
  | input (input : Input Raw)

/-- The run around one node. A world `σ` changes with every call that is awaited, and `produced`
reads the outputs out of it that other tasks fill in. `resolve` answers `none` for an object that
is not a boolean. -/
structure Runtime (σ Ty Raw Obj : Type) where
  registry : Registry Ty Raw Obj
  produced : σ → Produced Obj
  prepareHostTypes : Option (List Ty → List (Candidate Raw Obj) → σ → Except Fault Unit × σ)
  resolve : Value Obj → Except Fault (Option Bool)
  checkLazyStatus :
    Option (LazyStatusInvocation Ty Raw Obj → σ → Except Fault LazyStatusResult × σ)
  ensureNodes : List String → σ → Except Fault Unit × σ
  repr : String → String

variable {σ Ty Raw Obj : Type}

/-- `lazy_links`: the connected lazy inputs with the nodes they are linked to. -/
def lazyLinks (node : GraphNode Raw) (schema : NodeSchema Ty Raw) : List (String × String) :=
  (schema.inputs.filter (·.lazy)).filterMap fun spec =>
    match node.inputs.get? spec.id with
    | some (.link source _) => some (spec.id,source)
    | _ => none

def visibleInputs (node : GraphNode Raw) (schema : NodeSchema Ty Raw) (demanded : Finset String) :
    List (InputSpec Ty Raw) :=
  schema.inputs.filter fun spec => spec.id ∉ ((lazyLinks node schema).map (·.1)).filter (· ∉ demanded)

def candidate (produced : Produced Obj) (node : GraphNode Raw) (spec : InputSpec Ty Raw) :
    Except Fault (List (Candidate Raw Obj)) :=
  match node.inputs.get? spec.id with
  | some (.link source output) =>
    match (produced source).bind (·.get? output) with
    | none => .error (.other "KeyError" source)
    | some value => .ok [.value value]
  | some input => .ok [.input input]
  | none => .ok ((spec.default.map fun raw => Candidate.input (.literal raw)).toList)

/-- `_resolve_inputs_lazy` -/
def resolveInputsLazy (rt : Runtime σ Ty Raw Obj) (nodeId : String) (node : GraphNode Raw)
    (schema : NodeSchema Ty Raw) (demanded : Finset String) (world : σ) :
    Except Fault (Dict String (Value Obj)) × σ :=
  let visible := visibleInputs node schema demanded
  match rt.prepareHostTypes with
  | none => (resolveInputs rt.registry (rt.produced world) nodeId node visible,world)
  | some prepare =>
    match visible.mapM (candidate (rt.produced world) node) with
    | .error fault => (.error fault,world)
    | .ok values =>
      match prepare (visible.map (·.type) ++ schema.outputs) values.flatten world with
      | (.error fault,world) => (.error fault,world)
      | (.ok _,world) => (resolveInputs rt.registry (rt.produced world) nodeId node visible,world)

def selectorStatus (rt : Runtime σ Ty Raw Obj) (label : String) (node : GraphNode Raw)
    (schema : NodeSchema Ty Raw) (selector : SelectorSpec) (inputs : Dict String (Value Obj)) :
    Except Fault LazyStatusResult :=
  match inputs.get? selector.input with
  | none => .error (.other "KeyError" selector.input)
  | some value => do
    match ← rt.resolve value with
    | none => pure (.error
        ⟨label,node.nodeType,"selector input did not resolve to a boolean","",[]⟩)
    | some selected =>
      let branch := if selected then selector.onTrue else selector.onFalse
      if branch ∈ (lazyLinks node schema).map (·.1) ∧ inputs.get? branch = none then
        pure (.requested [.name branch])
      else pure (.requested [])

def lazyStatus (rt : Runtime σ Ty Raw Obj) (label : String) (node : GraphNode Raw)
    (schema : NodeSchema Ty Raw) (inputs : Dict String (Value Obj)) (demanded : Finset String)
    (world : σ) : Except Fault LazyStatusResult × σ :=
  match schema.selector,rt.checkLazyStatus with
  | some selector,_ => (selectorStatus rt label node schema selector inputs,world)
  | none,none => (.ok (.error
      ⟨label,node.nodeType,"lazy-protocol-skew: worker does not support lazy status","",[]⟩),world)
  | none,some check =>
    check ⟨label,node.nodeType,inputs,
      ((lazyLinks node schema).map (·.1)).filter (· ∉ demanded),schema⟩ world

def lazyRefusal (repr : String → String) (node : GraphNode Raw) (schema : NodeSchema Ty Raw) :
    Item → Option (String × String)
  | .object text => some ("lazy-request-invalid","non-string value " ++ text)
  | .name item =>
    match schema.inputs.find? (·.id = item) with
    | none => some ("lazy-request-unknown-input","unknown input " ++ repr item)
    | some spec =>
      if !spec.lazy then some ("lazy-request-non-lazy","non-lazy input " ++ repr item)
      else match node.inputs.get? item with
        | none => some ("lazy-request-unconnected","unconnected input " ++ repr item)
        | some (.link _ _) => none
        | some _ => some ("lazy-request-literal","literal input " ++ repr item)

def Item.name? : Item → Option String
  | .name text => some text
  | .object _ => none

/-- `_validate_lazy_requests` -/
def validateLazyRequests (repr : String → String) (label : String) (node : GraphNode Raw)
    (schema : NodeSchema Ty Raw) (raw : List Item) : Except NodeError (List String) :=
  match raw.findSome? (lazyRefusal repr node schema) with
  | some (code,cause) =>
    .error ⟨label,node.nodeType,code ++ ": lazy input hook requested " ++ cause,"",[]⟩
  | none => .ok ((schema.inputs.map (·.id)).filter (· ∈ raw.filterMap Item.name?))

/-- How the loop ends; a reported error is sent as `node_failed` before it is raised. -/
inductive Outcome (Obj : Type)
  | raised (fault : Fault)
  | reported (error : NodeError)
  | skipped (skip : Skip)
  | ready (inputs : Dict String (Value Obj))

def ask (rt : Runtime σ Ty Raw Obj) (label nodeId : String) (node : GraphNode Raw)
    (schema : NodeSchema Ty Raw) (demanded : Finset String) (world : σ) :
    Except (Outcome Obj) (Dict String (Value Obj) × List String) × σ :=
  match resolveInputsLazy rt nodeId node schema demanded world with
  | (.error fault,world) => (.error (.raised fault),world)
  | (.ok inputs,world) =>
    match applyAbsentPolicies rt.registry label node.nodeType schema.inputs inputs with
    | .error fault => (.error (.raised fault),world)
    | .ok (_,some skip) => (.error (.skipped skip),world)
    | .ok (inputs,none) =>
      match lazyStatus rt label node schema inputs demanded world with
      | (.error fault,world) => (.error (.raised fault),world)
      | (.ok (.error error),world) =>
        (.error (.reported ⟨label,node.nodeType,error.message,error.traceback,error.hints⟩),world)
      | (.ok (.requested raw),world) =>
        match validateLazyRequests rt.repr label node schema raw with
        | .error error => (.error (.reported error),world)
        | .ok requested => (.ok (inputs,requested),world)

/-- The event `lazy_demand` of a round, with the set that the reply met and the producers that were
awaited. -/
structure Round where
  number : Nat
  before : Finset String
  requestedInputs : List String
  newInputs : List String
  demandedInputs : List String
  producerNodes : List String
  awaited : List String

structure Loop (σ : Type) where
  world : σ
  roundNumber : Nat
  demanded : Finset String
  history : List Round

def producersOf (node : GraphNode Raw) (schema : NodeSchema Ty Raw) (new : List String) :
    List String :=
  sortedBy id (new.filterMap fun name => (lazyLinks node schema).lookup name).dedup

def round (rt : Runtime σ Ty Raw Obj) (label nodeId : String) (node : GraphNode Raw)
    (schema : NodeSchema Ty Raw) (s : Loop σ) : Loop σ × Option (Outcome Obj) :=
  let number := s.roundNumber + 1
  match ask rt label nodeId node schema s.demanded s.world with
  | (.error outcome,world) => (⟨world,number,s.demanded,s.history⟩,some outcome)
  | (.ok (inputs,requested),world) =>
    let new := requested.filter (· ∉ s.demanded)
    let demanded := s.demanded ∪ new.toFinset
    let producers := producersOf node schema new
    let awaited := if new = [] then [] else
      producers.filter fun producer => (rt.produced world producer).isNone
    let history := s.history ++ [⟨number,s.demanded,requested,new,
      (schema.inputs.map (·.id)).filter (· ∈ demanded),producers,awaited⟩]
    if new = [] then (⟨world,number,demanded,history⟩,some (.ready inputs))
    else
      match rt.ensureNodes awaited world with
      | (.error fault,world) => (⟨world,number,demanded,history⟩,some (.raised fault))
      | (.ok _,world) => (⟨world,number,demanded,history⟩,none)

def demandLoop (rt : Runtime σ Ty Raw Obj) (label nodeId : String) (node : GraphNode Raw)
    (schema : NodeSchema Ty Raw) : Nat → Loop σ → Option (Loop σ × Outcome Obj)
  | 0,_ => none
  | fuel + 1,s =>
    match round rt label nodeId node schema s with
    | (s,some outcome) => some (s,outcome)
    | (s,none) => demandLoop rt label nodeId node schema fuel s

/-- An entry of an input family's template: a plain input or another dynamic construct. -/
inductive TemplateEntry
  | input
  | dynamic
  deriving DecidableEq

structure InputFamily where
  id : String
  template : List TemplateEntry

/-- What the engine reads of the schema before its dynamic inputs are elaborated. -/
structure BaseSchema where
  inputs : List String
  families : List InputFamily

/-- `member_suffix` finds a suffix. -/
def InputFamily.owns (family : InputFamily) (inputId : String) : Bool :=
  (family.id ++ ".").isPrefixOf inputId && decide (inputId ≠ family.id ++ ".")

def unsupported (base : BaseSchema) (schema : NodeSchema Ty Raw) : Bool :=
  (schema.inputs.filter (·.lazy)).any fun spec =>
    decide (spec.id ∉ base.inputs) && match base.families.find? (·.owns spec.id) with
      | none => true
      | some family => decide (family.template ≠ [.input])

def start (world : σ) : Loop σ := ⟨world,0,∅,[]⟩

/-- How `_run_node` comes by the inputs of a node. -/
def demandInputs (rt : Runtime σ Ty Raw Obj) (base : BaseSchema) (label nodeId : String)
    (node : GraphNode Raw) (schema : NodeSchema Ty Raw) (fuel : Nat) (world : σ) :
    Option (Loop σ × Outcome Obj) :=
  if schema.inputs.any (·.lazy) then
    if unsupported base schema then
      some (start world,.reported ⟨label,node.nodeType,"lazy-dynamic-unsupported","",[]⟩)
    else demandLoop rt label nodeId node schema fuel (start world)
  else
    match resolveInputsLazy rt nodeId node schema ∅ world with
    | (.error fault,world) => some (start world,.raised fault)
    | (.ok inputs,world) =>
      match applyAbsentPolicies rt.registry label node.nodeType schema.inputs inputs with
      | .error fault => some (start world,.raised fault)
      | .ok (_,some skip) => some (start world,.skipped skip)
      | .ok (inputs,none) => some (start world,.ready inputs)

theorem mem_lazyLinks {node : GraphNode Raw} {schema : NodeSchema Ty Raw} {name source : String} :
    (name,source) ∈ lazyLinks node schema ↔ ∃ spec ∈ schema.inputs, spec.id = name ∧
      spec.lazy = true ∧ ∃ output, node.inputs.get? name = some (.link source output) := by
  rw [lazyLinks,List.mem_filterMap]
  constructor
  · rintro ⟨spec,kept,shape⟩
    obtain ⟨declared,isLazy⟩ := List.mem_filter.mp kept
    split at shape
    · rename_i output linked
      cases shape
      exact ⟨spec,declared,rfl,isLazy,output,linked⟩
    · cases shape
  · rintro ⟨spec,declared,rfl,isLazy,output,linked⟩
    exact ⟨spec,List.mem_filter.mpr ⟨declared,isLazy⟩,by rw [linked]⟩

theorem validateLazyRequests_ok {repr : String → String} {label : String} {node : GraphNode Raw}
    {schema : NodeSchema Ty Raw} {raw : List Item} {requested : List String}
    (valid : validateLazyRequests repr label node schema raw = .ok requested) :
    requested.Nodup ∧ requested ⊆ (lazyLinks node schema).map (·.1) := by
  rw [validateLazyRequests] at valid
  split at valid
  · cases valid
  · rename_i accepted
    cases valid
    refine ⟨schema.distinct.filter _,fun name inside => ?_⟩
    have named := of_decide_eq_true (List.mem_filter.mp inside).2
    obtain ⟨item,given,text⟩ := List.mem_filterMap.mp named
    have free := List.findSome?_eq_none_iff.mp accepted item given
    cases item with
    | object _ => cases text
    | name _ =>
      cases text
      rw [lazyRefusal] at free
      split at free
      · cases free
      · rename_i spec found
        split at free
        · cases free
        · rename_i isLazy
          split at free
          · cases free
          · rename_i source output linked
            have here : (name,source) ∈ lazyLinks node schema := mem_lazyLinks.mpr
              ⟨spec,List.mem_of_find?_eq_some found,by simpa using List.find?_some found,
                by simpa using isLazy,output,linked⟩
            exact List.mem_map.mpr ⟨_,here,rfl⟩
          · cases free

theorem ask_ok {rt : Runtime σ Ty Raw Obj} {label nodeId : String} {node : GraphNode Raw}
    {schema : NodeSchema Ty Raw} {demanded : Finset String} {world after : σ}
    {inputs : Dict String (Value Obj)} {requested : List String}
    (asked : ask rt label nodeId node schema demanded world = (.ok (inputs,requested),after)) :
    requested.Nodup ∧ requested ⊆ (lazyLinks node schema).map (·.1) := by
  rw [ask] at asked
  split at asked
  · cases asked
  · split at asked
    · cases asked
    · cases asked
    · split at asked
      · cases asked
      · cases asked
      · split at asked
        · cases asked
        · rename_i valid
          cases asked
          exact validateLazyRequests_ok valid

def Round.after (r : Round) : Finset String := r.before ∪ r.newInputs.toFinset

/-- The new inputs of a round are declared, lazy, connected and were not demanded before, and the
nodes it waits for are linked to them. -/
structure Round.Sound (node : GraphNode Raw) (schema : NodeSchema Ty Raw) (r : Round) : Prop where
  once : r.newInputs.Nodup
  fresh : ∀ name ∈ r.newInputs, name ∈ r.requestedInputs ∧ name ∉ r.before
  connected : ∀ name ∈ r.newInputs, ∃ spec ∈ schema.inputs, spec.id = name ∧ spec.lazy = true ∧
    ∃ source output, node.inputs.get? name = some (.link source output)
  awaits : ∀ producer ∈ r.awaited, ∃ name ∈ r.newInputs, ∃ output,
    node.inputs.get? name = some (.link producer output)

structure Loop.Sound (node : GraphNode Raw) (schema : NodeSchema Ty Raw) (s : Loop σ) : Prop where
  rounds : ∀ r ∈ s.history, r.Sound node schema
  grows : s.history.Pairwise fun r later => r.after ⊆ later.before
  kept : ∀ r ∈ s.history, r.after ⊆ s.demanded

structure Loop.Counted (node : GraphNode Raw) (schema : NodeSchema Ty Raw) (s : Loop σ) :
    Prop where
  inner : s.demanded ⊆ ((lazyLinks node schema).map (·.1)).toFinset
  count : s.roundNumber ≤ s.demanded.card

theorem Loop.Counted.card_le {node : GraphNode Raw} {schema : NodeSchema Ty Raw} {s : Loop σ}
    (counted : s.Counted node schema) : s.demanded.card ≤ (lazyLinks node schema).length :=
  calc s.demanded.card ≤ ((lazyLinks node schema).map (·.1)).toFinset.card :=
        Finset.card_le_card counted.inner
    _ ≤ ((lazyLinks node schema).map (·.1)).length := List.toFinset_card_le _
    _ = (lazyLinks node schema).length := List.length_map _

theorem mem_producersOf {node : GraphNode Raw} {schema : NodeSchema Ty Raw} {new : List String}
    {producer : String} (feeds : producer ∈ producersOf node schema new) :
    ∃ name ∈ new, ∃ output, node.inputs.get? name = some (.link producer output) := by
  rw [producersOf,mem_sortedBy,List.mem_dedup,List.mem_filterMap] at feeds
  obtain ⟨name,inside,found⟩ := feeds
  obtain ⟨before,after,split,_⟩ := List.lookup_eq_some_iff.mp found
  have here : (name,producer) ∈ lazyLinks node schema := split ▸ by simp
  obtain ⟨_,_,_,_,output,linked⟩ := mem_lazyLinks.mp here
  exact ⟨name,inside,output,linked⟩

section Step

variable (rt : Runtime σ Ty Raw Obj) (label nodeId : String) (node : GraphNode Raw)
  (schema : NodeSchema Ty Raw)

theorem round_cases (s : Loop σ) :
    (∃ world outcome, round rt label nodeId node schema s =
      (⟨world,s.roundNumber + 1,s.demanded,s.history⟩,some outcome)) ∨
    ∃ r world outcome, r.before = s.demanded ∧ r.Sound node schema ∧
      round rt label nodeId node schema s =
        (⟨world,s.roundNumber + 1,r.after,s.history ++ [r]⟩,outcome) ∧
      (outcome = none → r.newInputs ≠ []) := by
  rw [round]
  split
  · exact .inl ⟨_,_,rfl⟩
  · rename_i inputs requested world asked
    obtain ⟨distinct,known⟩ := ask_ok asked
    refine .inr ?_
    extract_lets new demanded producers awaited history
    have sound : Round.Sound node schema ⟨s.roundNumber + 1,s.demanded,requested,
        new,(schema.inputs.map (·.id)).filter (· ∈ demanded),producers,awaited⟩ := by
      refine ⟨distinct.filter _,fun name inside => ?_,fun name inside => ?_,
        fun producer waited => ?_⟩
      · obtain ⟨asked,free⟩ := List.mem_filter.mp inside
        exact ⟨asked,of_decide_eq_true free⟩
      · obtain ⟨⟨_,source⟩,here,rfl⟩ := List.mem_map.mp (known (List.mem_filter.mp inside).1)
        obtain ⟨spec,declared,same,isLazy,output,linked⟩ := mem_lazyLinks.mp here
        exact ⟨spec,declared,same,isLazy,source,output,linked⟩
      · have some : new ≠ [] := fun nothing => by simp [awaited,nothing] at waited
        simp only [awaited,some,if_false] at waited
        exact mem_producersOf (List.mem_filter.mp waited).1
    split
    · exact ⟨_,_,_,rfl,sound,rfl,nofun⟩
    · rename_i some
      split
      · exact ⟨_,_,_,rfl,sound,rfl,nofun⟩
      · exact ⟨_,_,_,rfl,sound,rfl,fun _ => some⟩

theorem round_sound {s : Loop σ} (sound : s.Sound node schema) :
    (round rt label nodeId node schema s).1.Sound node schema := by
  obtain ⟨world,outcome,same⟩ | ⟨r,world,outcome,before,here,same,_⟩ :=
    round_cases rt label nodeId node schema s
  · rw [same]
    exact ⟨sound.rounds,sound.grows,sound.kept⟩
  · rw [same]
    have earlier : ∀ q ∈ s.history, q.after ⊆ r.before := fun q inside =>
      before ▸ sound.kept q inside
    refine ⟨fun q inside => ?_,?_,fun q inside => ?_⟩
    · obtain old | rfl := List.mem_append.mp inside |>.imp_right List.mem_singleton.mp
      · exact sound.rounds q old
      · exact here
    · refine List.pairwise_append.mpr ⟨sound.grows,List.pairwise_singleton _ _,?_⟩
      intro q old r' last
      rw [List.mem_singleton.mp last]
      exact earlier q old
    · obtain old | rfl := List.mem_append.mp inside |>.imp_right List.mem_singleton.mp
      · exact (earlier q old).trans Finset.subset_union_left
      · exact subset_rfl

theorem round_counts (s : Loop σ) :
    (round rt label nodeId node schema s).1.roundNumber = s.roundNumber + 1 := by
  obtain ⟨world,outcome,same⟩ | ⟨r,world,outcome,_,_,same,_⟩ :=
    round_cases rt label nodeId node schema s <;> rw [same]

theorem round_adds {s : Loop σ} (counted : s.Counted node schema)
    (goesOn : (round rt label nodeId node schema s).2 = none) :
    (round rt label nodeId node schema s).1.Counted node schema ∧
      s.demanded.card < (round rt label nodeId node schema s).1.demanded.card := by
  obtain ⟨world,outcome,same⟩ | ⟨r,world,outcome,before,here,same,adds⟩ :=
    round_cases rt label nodeId node schema s
  · rw [same] at goesOn
    cases goesOn
  · rw [same] at goesOn ⊢
    have larger : s.demanded.card < r.after.card := by
      obtain ⟨name,inside⟩ := List.exists_mem_of_ne_nil _ (adds goesOn)
      refine Finset.card_lt_card (Finset.ssubset_iff_subset_ne.mpr ⟨?_,fun equal => ?_⟩)
      · exact before ▸ Finset.subset_union_left
      · have present : name ∈ r.after :=
          Finset.mem_union_right _ (List.mem_toFinset.mpr inside)
        exact (here.fresh name inside).2 (before ▸ equal ▸ present)
    refine ⟨⟨Finset.union_subset (before ▸ counted.inner) fun name inside => ?_,?_⟩,larger⟩
    · obtain ⟨spec,declared,same,isLazy,source,output,linked⟩ :=
        here.connected name (List.mem_toFinset.mp inside)
      exact List.mem_toFinset.mpr (List.mem_map.mpr ⟨(name,source),
        mem_lazyLinks.mpr ⟨spec,declared,same,isLazy,output,linked⟩,rfl⟩)
    · exact counted.count.trans_lt larger

theorem demandLoop_ends (fuel : Nat) {s : Loop σ} (sound : s.Sound node schema)
    (counted : s.Counted node schema)
    (enough : (lazyLinks node schema).length + 1 ≤ fuel + s.demanded.card) :
    ∃ last outcome, demandLoop rt label nodeId node schema fuel s = some (last,outcome) ∧
      last.Sound node schema ∧ last.roundNumber ≤ (lazyLinks node schema).length + 1 := by
  induction fuel generalizing s with
  | zero =>
    have bound := counted.card_le
    omega
  | succ fuel ih =>
    have kept := round_sound rt label nodeId node schema sound
    have number := round_counts rt label nodeId node schema s
    have adds := round_adds rt label nodeId node schema counted
    rw [demandLoop]
    generalize round rt label nodeId node schema s = result at kept number adds ⊢
    obtain ⟨next,_ | outcome⟩ := result
    · obtain ⟨counted,larger⟩ := adds rfl
      have larger : s.demanded.card < next.demanded.card := larger
      exact ih kept counted (by omega)
    · refine ⟨next,outcome,rfl,kept,?_⟩
      have bound := counted.card_le
      have before := counted.count
      have number : next.roundNumber = s.roundNumber + 1 := number
      omega

theorem demandLoop_mono {fuel : Nat} {s : Loop σ} {result : Loop σ × Outcome Obj}
    (ended : demandLoop rt label nodeId node schema fuel s = some result) {more : Nat}
    (enough : fuel ≤ more) : demandLoop rt label nodeId node schema more s = some result := by
  induction fuel generalizing s more with
  | zero => cases ended
  | succ fuel ih =>
    obtain ⟨more,rfl⟩ := Nat.exists_eq_succ_of_ne_zero (Nat.ne_zero_of_lt enough)
    rw [demandLoop] at ended ⊢
    split at ended
    · exact ended
    · exact ih ended (Nat.le_of_succ_le_succ enough)

/-- Whatever the hook replies and however the evaluation of its demands goes, the demand ends after
at most one round more than there are connected lazy inputs. It only grows, and a round waits only
for nodes that feed declared, connected lazy inputs that were not demanded before. -/
theorem demand_ends (base : BaseSchema) (world : σ) :
    ∃ last outcome,
      (∀ fuel, (lazyLinks node schema).length + 1 ≤ fuel →
        demandInputs rt base label nodeId node schema fuel world = some (last,outcome)) ∧
      last.roundNumber ≤ (lazyLinks node schema).length + 1 ∧
      last.history.Pairwise (fun r later => r.after ⊆ later.before) ∧
      (∀ r ∈ last.history, r.after ⊆ last.demanded) ∧
      ∀ r ∈ last.history, r.Sound node schema := by
  have fresh : ∀ w : σ, (start w).Sound node schema := fun w => ⟨by simp [start],by simp [start],
    by simp [start]⟩
  by_cases someLazy : schema.inputs.any (·.lazy)
  · by_cases refused : unsupported base schema
    · exact ⟨start world,_,fun fuel _ => by rw [demandInputs,if_pos someLazy,if_pos refused],
        Nat.zero_le _,(fresh world).grows,(fresh world).kept,(fresh world).rounds⟩
    · obtain ⟨last,outcome,ended,sound,bound⟩ := demandLoop_ends rt label nodeId node schema
        ((lazyLinks node schema).length + 1) (fresh world) ⟨by simp [start],Nat.zero_le _⟩
        (Nat.le_add_right _ _)
      refine ⟨last,outcome,fun fuel enough => ?_,bound,sound.grows,sound.kept,sound.rounds⟩
      rw [demandInputs,if_pos someLazy,if_neg refused]
      exact demandLoop_mono rt label nodeId node schema ended enough
  · have once : ∃ w outcome, ∀ fuel,
        demandInputs rt base label nodeId node schema fuel world = some (start w,outcome) := by
      simp only [demandInputs,someLazy,Bool.false_eq_true,if_false]
      repeat' split
      all_goals exact ⟨_,_,fun _ => rfl⟩
    obtain ⟨w,outcome,same⟩ := once
    exact ⟨start w,outcome,fun fuel _ => same fuel,Nat.zero_le _,(fresh w).grows,(fresh w).kept,
      (fresh w).rounds⟩

end Step

end Dinkster.LazyDemand
