import Dinkster.Graph.LinkedTyping

/-! The types of linked outputs exist once and are found in any order of the nodes; the interface
of a region depends on the region and the schemas alone, whoever derives it. -/
namespace Dinkster.LinkedTypes
open Fallible TypeExpr Dinkster.Dynamic Solve Plan

section
variable {includeTypedLiterals : Bool} {level : Level} {nodes : Nodes}

theorem filled_instance {resolved : Dict String Outputs} {n : String} {node : GraphNode}
    {schema : ValidSchema} {output : OutputSpec} {type : TypeExpr}
    (found : nodes.get? n = some (.node node)) (known : level.effective.get? n = some schema)
    (inside : output ∈ schema.1.outputs) :
    Instance includeTypedLiterals level nodes (assigned level resolved) n schema output type ↔
      ∃ outputs, filled includeTypedLiterals level resolved (n,.node node) = some outputs ∧
        outputs.get? output.id = some type := by
  constructor
  · rintro ⟨node',inputTypes,bindings,found',linked,bound,valid,resolves⟩
    obtain rfl := AnyNode.node.inj (Option.some.inj (found.symm.trans found'))
    rw [← sourceType_eq] at linked
    rcases @linkedInputTypes_spec _ schema _ node with ⟨inputTypes',run,linked'⟩ | ⟨-,none_⟩
    · rw [linked.bind_eq linked'] at bound
      cases made : concreteOutputs schema bindings with
      | error error =>
        obtain ⟨bad,member,fails⟩ := concreteOutputs_error made
        obtain ⟨fine,resolved_⟩ := valid bad member
        exact absurd resolved_ (fails fine)
      | ok outputs =>
        have typed : outputs.get? output.id = some type :=
          Except.ok.inj (((concreteOutputs_ok made).1 output inside).symm.trans resolves)
        have some_ : outputs.entries ≠ [] :=
          List.ne_nil_of_mem ((Dict.get?_eq_some_iff _ _ _).mp typed)
        exact ⟨outputs,filled_some.mpr ⟨node,schema,rfl,known,
          findOutputs_outputs.mpr ⟨inputTypes',bindings,run,bound,made⟩,some_⟩,typed⟩
    · exact absurd linked (none_ inputTypes)
  · rintro ⟨outputs,held,typed⟩
    obtain ⟨_,_,⟨⟩,known',here,-⟩ := filled_some.mp held
    obtain rfl := Option.some.inj (known.symm.trans known')
    obtain ⟨inputTypes,bindings,run,bound,made⟩ := findOutputs_outputs.mp here
    obtain ⟨resolves,-⟩ := concreteOutputs_ok made
    refine ⟨node,inputTypes,bindings,found,?_,bound,fun other member => ⟨_,resolves other member⟩,
      typed ▸ resolves output inside⟩
    rw [← sourceType_eq]
    rcases @linkedInputTypes_spec _ schema _ node with ⟨inputTypes',run',linked⟩ | ⟨none_,-⟩
    · exact Option.some.inj (run'.symm.trans run) ▸ linked
    · rw [run] at none_
      cases none_

theorem resolve_solves (includeTypedLiterals : Bool) (level : Level) (nodes : Nodes) :
    let resolved := (resolveLinkedOutputTypes level includeTypedLiterals nodes).1
    Passes.Stable (filled includeTypedLiterals level) nodes resolved ∧
      Passes.Solves (filled includeTypedLiterals level) nodes.entries resolved := by
  have steady : Passes.Steady (filled includeTypedLiterals level) nodes := filled_steady nodes
  have solved := Passes.passes_solve steady (n := nodes.keys.length) .empty (Nat.le_add_left _ _)
  rw [← rounds_resolved nodes nodes.keys.length ⟨Dict.empty,Dict.empty,false⟩] at solved
  exact solved

theorem solves_wellTyped {resolved : Dict String Outputs}
    (within : ∀ n ∈ resolved.keys, n ∈ nodes.keys)
    (solves : Passes.Solves (filled includeTypedLiterals level) nodes.entries resolved) :
    WellTyped includeTypedLiterals level nodes (assigned level resolved) := by
  have held : ∀ n outputs, resolved.get? n = some outputs → ∃ node,
      nodes.get? n = some (.node node) ∧
        filled includeTypedLiterals level resolved (n,.node node) = some outputs := by
    intro n outputs here
    obtain ⟨node,found⟩ := (Dict.mem_keys_iff _ _).mp
      (within n ((Dict.mem_keys_iff _ _).mpr ⟨outputs,here⟩))
    have given := (solves (n,node) ((Dict.get?_eq_some_iff _ _ _).mp found)).symm.trans here
    obtain ⟨plain,_,rfl,-⟩ := filled_some.mp given
    exact ⟨plain,found,given⟩
  have from_ : ∀ n schema output, level.effective.get? n = some schema →
      output ∈ schema.1.outputs → ∀ type,
        (resolved.get? n).bind (·.get? output.id) = some type ↔
          Instance includeTypedLiterals level nodes (assigned level resolved) n schema output
            type := by
    intro n schema output known inside type
    constructor
    · intro here
      obtain ⟨outputs,there,typed⟩ := Option.bind_eq_some_iff.mp here
      obtain ⟨node,found,given⟩ := held n outputs there
      exact (filled_instance found known inside).mpr ⟨outputs,given,typed⟩
    · intro is
      obtain ⟨node,_,_,found,_⟩ := id is
      obtain ⟨outputs,given,typed⟩ := (filled_instance found known inside).mp is
      rw [solves (n,.node node) ((Dict.get?_eq_some_iff _ _ _).mp found),given]
      exact typed
  constructor
  · intro n o undeclared
    unfold assigned
    cases here : (resolved.get? n).bind (·.get? o) with
    | none => exact undeclared
    | some type =>
      obtain ⟨outputs,there,typed⟩ := Option.bind_eq_some_iff.mp here
      obtain ⟨node,found,given⟩ := held n outputs there
      obtain ⟨_,schema,⟨⟩,known,made,-⟩ := filled_some.mp given
      obtain ⟨_,_,-,-,outputs_⟩ := findOutputs_outputs.mp made
      rw [(concreteOutputs_ok outputs_).2 o fun output inside same => ?_] at typed
      · cases typed
      · rw [declared,known,Option.bind_some,← same,output_self inside] at undeclared
        cases undeclared
  · intro n schema known output inside
    have rule := from_ n schema output known inside
    unfold assigned
    cases here : (resolved.get? n).bind (·.get? output.id) with
    | some type => exact ⟨type,rfl,.inl ((rule type).mp here)⟩
    | none =>
      refine ⟨output.type,?_,.inr ⟨rfl,fun other is => ?_⟩⟩
      · simp only
        rw [declared,known,Option.bind_some,output_self inside]
        rfl
      · have typed := (rule other).mpr is
        rw [here] at typed
        cases typed

theorem Instance.unique {types : Types} {n : String} {schema : ValidSchema} {output : OutputSpec}
    {type type' : TypeExpr}
    (is : Instance includeTypedLiterals level nodes types n schema output type)
    (is' : Instance includeTypedLiterals level nodes types n schema output type') :
    type = type' := by
  obtain ⟨node,inputTypes,bindings,found,linked,bound,-,resolves⟩ := is
  obtain ⟨node',inputTypes',bindings',found',linked',bound',-,resolves'⟩ := is'
  obtain rfl := AnyNode.node.inj (Option.some.inj (found.symm.trans found'))
  rw [linked.bind_eq linked'] at bound
  obtain rfl := Except.ok.inj (bound.symm.trans bound')
  exact Option.some.inj (Except.ok.inj (resolves.symm.trans resolves'))

theorem Instance.congr {types types' : Types} {n : String} {schema : ValidSchema}
    {output : OutputSpec} {type : TypeExpr}
    (same : ∀ node, nodes.get? n = some (.node node) → ∀ i link, (i,.link link) ∈ node.inputs →
      typeOf level types link = typeOf level types' link)
    (is : Instance includeTypedLiterals level nodes types n schema output type) :
    Instance includeTypedLiterals level nodes types' n schema output type := by
  obtain ⟨node,inputTypes,bindings,found,linked,rest⟩ := is
  refine ⟨node,inputTypes,bindings,found,?_,rest⟩
  have carries : ∀ i v, (Dict.ofList node.inputs).get? i = some v →
      carried includeTypedLiterals (typeOf level types) v =
        carried includeTypedLiterals (typeOf level types') v := by
    intro i v here
    cases v with
    | link link =>
      have listed := Dict.mem_entries_of_ofList ((Dict.get?_eq_some_iff _ _ _).mp here)
      rw [carried,carried,same node found i link listed]
    | typed _ => rfl
    | literal _ => rfl
  constructor
  · intro i v here generic
    rw [← carries i v here]
    exact linked.all i v here generic
  · intro i
    rw [linked.each i]
    cases here : (Dict.ofList node.inputs).get? i with
    | none => rfl
    | some v => rw [Option.bind_some,Option.bind_some,carries i v here]

theorem WellTyped.of_absent {types : Types}
    (typed : WellTyped includeTypedLiterals level nodes types) {n : String}
    (absent : ∀ node, nodes.get? n ≠ some (.node node)) (o : String) :
    types n o = declared level n o := by
  cases found : declared level n o with
  | none => exact typed.only n o found
  | some type =>
    obtain ⟨output,here,rfl⟩ := Option.map_eq_some_iff.mp found
    obtain ⟨schema,known,named⟩ := Option.bind_eq_some_iff.mp here
    rw [ValidSchema.output] at named
    have id_ := List.find?_some named
    rw [decide_eq_true_eq] at id_
    obtain ⟨type,is,⟨node,_,_,found',_⟩ | ⟨rfl,-⟩⟩ :=
      typed.outputs n schema known output (List.mem_of_find?_eq_some named)
    · exact absurd found' (absent node)
    · exact id_ ▸ is

theorem WellTyped.unique {types types' : Types} (acyclic : Digraph.Acyclic (Reads nodes))
    (typed : WellTyped includeTypedLiterals level nodes types)
    (typed' : WellTyped includeTypedLiterals level nodes types') : types = types' := by
  suffices every : ∀ n, ∀ o, types n o = types' n o from funext fun n => funext (every n)
  refine acyclic.induction (l := nodes.keys) (fun n m reads => ?_) fun n ih => ?_
  · obtain ⟨_,node,found,_⟩ := mem_dependencies.mp reads
    exact (Dict.mem_keys_iff _ _).mpr ⟨node,found⟩
  have links : ∀ node, nodes.get? n = some (.node node) → ∀ i link, (i,.link link) ∈ node.inputs →
      typeOf level types link = typeOf level types' link := by
    intro node found i link inside
    have same : types link.nodeId link.outputId = types' link.nodeId link.outputId := by
      by_cases present : link.nodeId ∈ nodes.keys
      · refine ih link.nodeId (mem_dependencies.mpr ⟨present,_,found,?_⟩) link.outputId
        exact mem_sources.mpr ⟨_,inside,rfl⟩
      · have absent : ∀ other, nodes.get? link.nodeId ≠ some (.node other) := fun other found =>
          present ((Dict.mem_keys_iff _ _).mpr ⟨_,found⟩)
        rw [typed.of_absent absent,typed'.of_absent absent]
    rw [typeOf,typeOf,same]
  intro o
  cases found : declared level n o with
  | none => rw [typed.only n o found,typed'.only n o found]
  | some type =>
    obtain ⟨output,here,rfl⟩ := Option.map_eq_some_iff.mp found
    obtain ⟨schema,known,named⟩ := Option.bind_eq_some_iff.mp here
    rw [ValidSchema.output] at named
    have id_ := List.find?_some named
    rw [decide_eq_true_eq] at id_
    have inside := List.mem_of_find?_eq_some named
    obtain ⟨t,is,cases_⟩ := typed.outputs n schema known output inside
    obtain ⟨t',is',cases'⟩ := typed'.outputs n schema known output inside
    rw [← id_,is,is']
    rcases cases_ with instance_ | ⟨rfl,none_⟩
    · rcases cases' with instance' | ⟨rfl,none'⟩
      · exact congrArg some (Instance.unique (instance_.congr links) instance')
      · exact absurd (instance_.congr links) (none' t)
    · rcases cases' with instance' | ⟨rfl,none'⟩
      · have back := fun node found i link inside => (links node found i link inside).symm
        exact absurd (instance'.congr back) (none_ t')
      · rfl

structure Level.Alike (level level' : Level) : Prop where
  ports : ∀ p, level.ports.get? p = level'.ports.get? p
  effective : ∀ n, level.effective.get? n = level'.effective.get? n
  interfaces : ∀ n, level.interfaces.get? n = level'.interfaces.get? n

variable {level' : Level} {nodes' : Nodes}

theorem Level.Alike.declared (alike : level.Alike level') :
    LinkedTypes.declared level = LinkedTypes.declared level' := by
  funext n o
  rw [LinkedTypes.declared,LinkedTypes.declared,alike.effective n]

theorem Level.Alike.typeOf (alike : level.Alike level') :
    LinkedTypes.typeOf level = LinkedTypes.typeOf level' := by
  funext types link
  rw [LinkedTypes.typeOf,LinkedTypes.typeOf,regionPortType,regionPortType,
    alike.ports link.outputId,alike.interfaces link.nodeId]

theorem Level.Alike.wellTyped (alike : level.Alike level')
    (same : ∀ n, nodes.get? n = nodes'.get? n) {types : Types}
    (typed : WellTyped includeTypedLiterals level nodes types) :
    WellTyped includeTypedLiterals level' nodes' types := by
  have one : ∀ n schema output type,
      Instance includeTypedLiterals level nodes types n schema output type ↔
        Instance includeTypedLiterals level' nodes' types n schema output type := by
    intro n schema output type
    rw [Instance,Instance,same n,alike.typeOf]
  constructor
  · intro n o undeclared
    exact typed.only n o (alike.declared ▸ undeclared)
  · intro n schema known output inside
    obtain ⟨type,is,cases_⟩ :=
      typed.outputs n schema ((alike.effective n).trans known) output inside
    refine ⟨type,is,?_⟩
    simp only [← one]
    exact cases_

theorem filled_alike (alike : level.Alike level') {resolved resolved' : Dict String Outputs}
    (types : assigned level resolved = assigned level' resolved') (entry : String × AnyNode) :
    filled includeTypedLiterals level resolved entry =
      filled includeTypedLiterals level' resolved' entry := by
  have source : sourceType level resolved = sourceType level' resolved' := by
    rw [sourceType_eq,sourceType_eq,types,alike.typeOf]
  unfold filled
  rw [source,alike.effective entry.1]

theorem resolve_alike (acyclic : Digraph.Acyclic (Reads nodes)) (alike : level.Alike level')
    (same : ∀ n, nodes.get? n = nodes'.get? n) (n : String) :
    (resolveLinkedOutputTypes level includeTypedLiterals nodes).1.get? n =
      (resolveLinkedOutputTypes level' includeTypedLiterals nodes').1.get? n := by
  obtain ⟨stable,solves⟩ := resolve_solves includeTypedLiterals level nodes
  obtain ⟨stable',solves'⟩ := resolve_solves includeTypedLiterals level' nodes'
  have back : level'.Alike level := ⟨fun p => (alike.ports p).symm,
    fun n => (alike.effective n).symm,fun n => (alike.interfaces n).symm⟩
  have types := (solves_wellTyped stable.within solves).unique acyclic
    (back.wellTyped (fun n => (same n).symm) (solves_wellTyped stable'.within solves'))
  have both : ∀ m, m ∈ nodes.keys ↔ m ∈ nodes'.keys := fun m => by
    rw [Dict.mem_keys_iff,Dict.mem_keys_iff,same m]
  cases found : nodes.get? n with
  | none =>
    have absent := (Dict.get?_eq_none_iff _ _).mp found
    rw [(Dict.get?_eq_none_iff _ _).mpr fun held => absent (stable.within n held),
      (Dict.get?_eq_none_iff _ _).mpr fun held => absent ((both n).mpr (stable'.within n held))]
  | some node =>
    have here := solves (n,node) ((Dict.get?_eq_some_iff _ _ _).mp found)
    have there := solves' (n,node) ((Dict.get?_eq_some_iff _ _ _).mp ((same n).symm.trans found))
    rw [here,there]
    exact filled_alike alike types (n,node)

end

section
variable {py : Python} {repr : InputValue → String} {schemas : Schemas}

mutual

theorem interfacePass_scope (scope scope' : String) (includeElab includeElab' : Bool) :
    ∀ (graph : Graph) (pass : InterfacePass),
      interfacePass py repr schemas scope includeElab graph = .ok pass →
      ∃ pass', interfacePass py repr schemas scope' includeElab' graph = .ok pass' ∧
        pass'.effective = pass.effective ∧ pass'.regions = pass.regions
  | ⟨nodes⟩,pass,done => by
    rw [interfacePass] at done
    obtain ⟨elaborated,first,done⟩ := bind_ok.mp done
    obtain ⟨regions,second,done⟩ := bind_ok.mp done
    cases done
    obtain ⟨regions',second',same⟩ := regionsPass_scope scope scope' nodes regions second
    refine ⟨⟨elaborated.1,regions'.1,
      (if includeElab' then elaborated.2.map (prefixed scope') else []) ++ regions'.2⟩,?_,rfl,same⟩
    rw [interfacePass]
    exact bind_ok.mpr ⟨elaborated,first,bind_ok.mpr ⟨regions',second',rfl⟩⟩

theorem regionsPass_scope (scope scope' : String) :
    ∀ (nodes : List (String × AnyNode)) (found : List (String × RegionData) × List Diagnostic),
      regionsPass py repr schemas scope nodes = .ok found →
      ∃ found', regionsPass py repr schemas scope' nodes = .ok found' ∧ found'.1 = found.1
  | [],found,done => by
    cases done
    exact ⟨_,rfl,rfl⟩
  | (nodeId,node) :: rest,found,done => by
    rw [regionsPass] at done
    obtain ⟨here,first,done⟩ := bind_ok.mp done
    obtain ⟨others,second,done⟩ := bind_ok.mp done
    cases done
    obtain ⟨here',first',same⟩ :=
      regionPass_scope _ (scope' ++ nodeId ++ "/") node here first
    obtain ⟨others',second',same'⟩ := regionsPass_scope scope scope' rest others second
    refine ⟨(here'.1.toList.map (nodeId,·) ++ others'.1,here'.2 ++ others'.2),?_,by rw [same,same']⟩
    rw [regionsPass]
    exact bind_ok.mpr ⟨here',first',bind_ok.mpr ⟨others',second',rfl⟩⟩

theorem regionPass_scope (scope scope' : String) :
    ∀ (node : AnyNode) (found : Option RegionData × List Diagnostic),
      regionPass py repr schemas scope node = .ok found →
      ∃ found', regionPass py repr schemas scope' node = .ok found' ∧ found'.1 = found.1
  | .node _,found,done => by
    cases done
    exact ⟨_,rfl,rfl⟩
  | .region ⟨_,body,ports,_,_,_,outputs,_,_,_,_⟩,found,done => by
    rw [regionPass] at done
    obtain ⟨inner,first,done⟩ := bind_ok.mp done
    cases done
    obtain ⟨inner',first',effective,regions⟩ :=
      interfacePass_scope scope scope' true true body inner first
    refine ⟨(some (regionData body ports outputs inner'.effective inner'.regions),
      inner'.diagnostics),?_,by rw [effective,regions]⟩
    rw [regionPass]
    exact bind_ok.mpr ⟨inner',first',rfl⟩

end

variable (py repr schemas) in
/-- What validation holds of a region: the interface that execution derives for it, from a body
whose outputs can be typed in one way. -/
structure Derived (region : RegionNode Graph) (data : RegionData) : Prop where
  agreed : regionInterface py repr schemas region = .ok data.interface
  outputs : data.interface = Dict.ofList (region.outputs.map fun e => (e.1,
    regionOutputType ⟨portTypes region.ports,data.bodyEffective,interfaces data.bodyRegions⟩
      data.bodyOutputTypes e.1 e.2))
  typed :
    let body : Level :=
      ⟨portTypes region.ports,data.bodyEffective,interfaces data.bodyRegions⟩
    let nodes := Dict.ofList region.body.nodes
    WellTyped false body nodes (assigned body data.bodyOutputTypes) ∧
      (Digraph.Acyclic (Reads nodes) → ∀ types, WellTyped false body nodes types →
        types = assigned body data.bodyOutputTypes)

/-- `P` holds of every region and its data, at every depth. -/
inductive EachRegion (P : RegionNode Graph → RegionData → Prop) :
    List (String × AnyNode) → List (String × RegionData) → Prop
  | nil : EachRegion P [] []
  | node {nodeId node rest found} (others : EachRegion P rest found) :
    EachRegion P ((nodeId,.node node) :: rest) found
  | region {nodeId region data rest found} (here : P region data)
    (inside : EachRegion P region.body.nodes data.bodyRegions) (others : EachRegion P rest found) :
    EachRegion P ((nodeId,.region region) :: rest) ((nodeId,data) :: found)

theorem regionPass_derived {scope : String} {region : RegionNode Graph} {data : RegionData}
    {diagnostics : List Diagnostic}
    (done : regionPass py repr schemas scope (.region region) = .ok (some data,diagnostics)) :
    Derived py repr schemas region data := by
  obtain ⟨kind,body,ports,inputs,elementPorts,statePorts,outputs,binding,policy,most,go⟩ := region
  constructor
  · obtain ⟨⟨data',others⟩,again,same⟩ := regionPass_scope scope ("" ++ "$" ++ "/") _ _ done
    cases same
    have whole : regionsPass py repr schemas "" [("$",.region ⟨kind,body,ports,inputs,elementPorts,
        statePorts,outputs,binding,policy,most,go⟩)] = .ok ([("$",data)],others ++ []) := by
      rw [regionsPass]
      exact bind_ok.mpr ⟨_,again,bind_ok.mpr ⟨([],[]),rfl,rfl⟩⟩
    rw [regionInterface,interfacePass]
    refine bind_ok.mpr ⟨⟨Dict.empty,[("$",data)],others ++ []⟩,?_,rfl⟩
    exact bind_ok.mpr ⟨(Dict.empty,[]),rfl,bind_ok.mpr ⟨_,whole,rfl⟩⟩
  · rw [regionPass] at done
    obtain ⟨inner,-,last⟩ := bind_ok.mp done
    cases last
    rfl
  · rw [regionPass] at done
    obtain ⟨inner,-,last⟩ := bind_ok.mp done
    cases last
    obtain ⟨stable,solves⟩ := resolve_solves false
      ⟨portTypes ports,inner.effective,interfaces inner.regions⟩ (Dict.ofList body.nodes)
    have typed := solves_wellTyped stable.within solves
    exact ⟨typed,fun acyclic types other => other.unique acyclic typed⟩

mutual

theorem interfacePass_derived {scope : String} {includeElab : Bool} :
    ∀ (graph : Graph) (pass : InterfacePass),
      interfacePass py repr schemas scope includeElab graph = .ok pass →
      EachRegion (Derived py repr schemas) graph.nodes pass.regions
  | ⟨nodes⟩,pass,done => by
    rw [interfacePass] at done
    obtain ⟨elaborated,-,done⟩ := bind_ok.mp done
    obtain ⟨regions,second,done⟩ := bind_ok.mp done
    cases done
    exact regionsPass_derived nodes regions second

theorem regionsPass_derived {scope : String} :
    ∀ (nodes : List (String × AnyNode)) (found : List (String × RegionData) × List Diagnostic),
      regionsPass py repr schemas scope nodes = .ok found →
      EachRegion (Derived py repr schemas) nodes found.1
  | [],found,done => by
    cases done
    exact .nil
  | (nodeId,.node node) :: rest,found,done => by
    rw [regionsPass] at done
    obtain ⟨here,first,done⟩ := bind_ok.mp done
    obtain ⟨others,second,done⟩ := bind_ok.mp done
    cases done
    cases first
    exact .node (regionsPass_derived rest others second)
  | (nodeId,.region ⟨kind,body,ports,inputs,elementPorts,statePorts,outputs,binding,policy,most,
      go⟩) :: rest,found,done => by
    rw [regionsPass] at done
    obtain ⟨here,first,done⟩ := bind_ok.mp done
    obtain ⟨others,second,done⟩ := bind_ok.mp done
    cases done
    have inside := first
    rw [regionPass] at inside
    obtain ⟨inner,run,last⟩ := bind_ok.mp inside
    cases last
    exact .region (regionPass_derived first) (interfacePass_derived body inner run)
      (regionsPass_derived rest others second)

end

end

/-- On a graph without cycles the linked outputs are typed in the only possible way, however nodes
and levels are listed. Every region that validation passes, at every depth, has the interface that
execution derives for it, from a body that is typed in that way. -/
theorem linked_types :
    (∀ includeTypedLiterals level nodes, Digraph.Acyclic (Reads nodes) →
      let resolved := (resolveLinkedOutputTypes level includeTypedLiterals nodes).1
      WellTyped includeTypedLiterals level nodes (assigned level resolved) ∧
      (∀ types, WellTyped includeTypedLiterals level nodes types →
        types = assigned level resolved) ∧
      ∀ level' nodes', level.Alike level' → (∀ n, nodes.get? n = nodes'.get? n) → ∀ n,
        resolved.get? n =
          (resolveLinkedOutputTypes level' includeTypedLiterals nodes').1.get? n) ∧
    ∀ py repr schemas scope includeElab graph pass,
      interfacePass py repr schemas scope includeElab graph = .ok pass →
        EachRegion (Derived py repr schemas) graph.nodes pass.regions := by
  refine ⟨fun typed level nodes acyclic => ?_,fun _ _ _ _ _ graph pass done =>
    interfacePass_derived graph pass done⟩
  obtain ⟨stable,solves⟩ := resolve_solves typed level nodes
  have wellTyped := solves_wellTyped stable.within solves
  exact ⟨wellTyped,fun types other => other.unique acyclic wellTyped,
    fun level' nodes' alike same => resolve_alike acyclic alike same⟩

private def plainSchema (nodeType : String) (inputs : List Dynamic.InputSpec)
    (outputs : List OutputSpec) : NodeSchema where
  nodeType := nodeType
  inputs := inputs
  constructs := []
  inputOrder := []
  outputs := outputs
  outputFamilies := []
  outputDescriptors := none
  additionalInputs := none
  mirror := none
  chunkSafe := none
  chunkSafeApplies := none
  slotChoices := []

def numberSchema : ValidSchema :=
  ⟨plainSchema "number" [] [⟨"out",.concrete "INT","",false,"",none⟩],by decide⟩

def pairSchema : ValidSchema :=
  ⟨plainSchema "pair" [{ id := "first", type := .variable "T" [], required := true },
    { id := "second", type := .variable "T" [], required := true }]
    [⟨"both",.variable "T" [],"",false,"",none⟩],by decide⟩

/-- The first input of the pair is linked to a number, the second one holds what is given. -/
def pairNodes (second : InputValue) : Nodes :=
  ⟨[("pair",.node ⟨"pair",[("first",.link ⟨"number","out"⟩),("second",second)],[],[]⟩),
    ("number",.node ⟨"number",[],[],[]⟩)],by simp⟩

def pairLevel : Level :=
  ⟨Dict.empty,(Dict.empty.set "number" numberSchema).set "pair" pairSchema,Dict.empty⟩

def pairTypes (second : InputValue) : Types :=
  assigned pairLevel (resolveLinkedOutputTypes pairLevel false (pairNodes second)).1

private theorem pairNodes_reads {second : InputValue} (outside : source? second ≠ some "pair")
    {a b : String} (reads : Reads (pairNodes second) a b) : a = "pair" ∧ b = "number" := by
  obtain ⟨present,node,found,source⟩ := mem_dependencies.mp reads
  have listed := (Dict.get?_eq_some_iff _ _ _).mp found
  simp only [pairNodes,List.mem_cons,Prod.mk.injEq,List.not_mem_nil,or_false] at listed
  rcases listed with ⟨rfl,rfl⟩ | ⟨rfl,rfl⟩
  · obtain ⟨e,inside,link⟩ := mem_sources.mp source
    simp only [inputsOf,List.mem_cons,List.not_mem_nil,or_false] at inside
    simp only [pairNodes,Dict.keys,List.map_cons,List.map_nil,List.mem_cons,List.not_mem_nil,
      or_false] at present
    rcases present with rfl | rfl
    · rcases inside with rfl | rfl
      · exact absurd (Option.some.inj link) (by decide)
      · exact absurd link outside
    · exact ⟨rfl,rfl⟩
  · cases source

private theorem pairNodes_acyclic {second : InputValue} (outside : source? second ≠ some "pair") :
    Digraph.Acyclic (Reads (pairNodes second)) := by
  have path : ∀ a b, Relation.TransGen (Reads (pairNodes second)) a b →
      a = "pair" ∧ b = "number" := by
    intro a b path
    induction path with
    | single step => exact pairNodes_reads outside step
    | tail _ step ih =>
      obtain ⟨rfl,-⟩ := pairNodes_reads outside step
      exact absurd ih.2 (by decide)
  intro a cycle
  obtain ⟨rfl,same⟩ := path a a cycle
  exact absurd same (by decide)

/-- A region without a body that gathers its index. -/
def indexRegion : RegionNode Graph where
  kind := .map
  body := ⟨[]⟩
  ports := []
  inputs := []
  elementPorts := []
  statePorts := []
  outputs := [("indexes",⟨⟨"$region","index"⟩,.gather⟩)]
  binding := .zip
  cachePolicy := .reuse
  maxIterations := none
  continueSource := none

private theorem indexRegion_pass : interfacePass silentPython (fun _ => "") Dict.empty "" true
    ⟨[("region",.region indexRegion)]⟩ = .ok ⟨Dict.empty,[("region",
      ⟨Dict.empty,[],Dict.empty,Dict.empty.set "indexes" (some (listOf (.concrete "INT")))⟩)],[]⟩ :=
  rfl

theorem linked_types_pair :
    (∀ types, WellTyped false pairLevel (pairNodes (.link ⟨"number","out"⟩)) types →
      types "pair" "both" = some (.concrete "INT")) ∧
    EachRegion (Derived silentPython (fun _ => "") Dict.empty) [("region",.region indexRegion)]
      [("region",⟨Dict.empty,[],Dict.empty,
        Dict.empty.set "indexes" (some (listOf (.concrete "INT")))⟩)] := by
  refine ⟨fun types typed => ?_,linked_types.2 silentPython (fun _ => "") Dict.empty "" true _ _
    indexRegion_pass⟩
  rw [(linked_types.1 false pairLevel (pairNodes (.link ⟨"number","out"⟩))
    (pairNodes_acyclic (by decide))).2.1 types typed]
  decide +kernel

/-- Every output has its declared type with what the types of its linked inputs bind. -/
def Instantiated (level : Level) (nodes : Nodes) (types : Types) : Prop :=
  ∀ n node schema output inputTypes bindings type, nodes.get? n = some (.node node) →
    level.effective.get? n = some schema → output ∈ schema.1.outputs →
    (∀ i typeId, inputTypes.get? i = some typeId ↔ isGeneric schema i = true ∧
      ∃ link expr, (Dict.ofList node.inputs).get? i = some (.link link) ∧
        typeOf level types link = some expr ∧ expr.runtimeTypeId = some typeId) →
    bindTypeVariables schema.solverInputs inputTypes = .ok bindings →
    resolvedTypeExpr bindings output.type = .ok (some type) → types n output.id = some type

/-- A literal in one of two inputs of one type keeps the output open, although the link to the
other one settles the type. -/
theorem literal_keeps_open :
    Digraph.Acyclic (Reads (pairNodes (.literal (.int 3)))) ∧
    typeOf pairLevel (pairTypes (.literal (.int 3))) ⟨"number","out"⟩ = some (.concrete "INT") ∧
    pairTypes (.literal (.int 3)) "pair" "both" = some (.variable "T" []) ∧
    ¬ Instantiated pairLevel (pairNodes (.literal (.int 3))) (pairTypes (.literal (.int 3))) := by
  have number : typeOf pairLevel (pairTypes (.literal (.int 3))) ⟨"number","out"⟩ =
      some (.concrete "INT") := by decide +kernel
  have open_ : pairTypes (.literal (.int 3)) "pair" "both" = some (.variable "T" []) := by
    decide +kernel
  refine ⟨pairNodes_acyclic (by decide),number,open_,fun instantiated => ?_⟩
  have resolves : resolvedTypeExpr (Dict.empty.set "T" "INT") (.variable "T" []) =
      .ok (some (.concrete "INT")) := by
    rw [TypeExpr.variable,resolvedTypeExpr,Dict.get?_set_self,Option.map_some,
      typeExprFromRuntimeId_concrete (by decide +kernel) (by decide +kernel) (by decide +kernel)
        (by decide +kernel)]
  have typed := instantiated "pair" _ pairSchema ⟨"both",.variable "T" [],"",false,"",none⟩
    (Dict.empty.set "first" "INT") (Dict.empty.set "T" "INT") (.concrete "INT") rfl rfl
    (List.mem_singleton.mpr rfl) (fun i typeId => ?_) (toOption_ok.mp (by decide +kernel)) resolves
  · rw [open_] at typed
    exact absurd typed (by decide)
  · by_cases first : i = "first"
    · subst first
      rw [Dict.get?_set_self]
      constructor
      · rintro ⟨⟩
        exact ⟨rfl,_,_,rfl,number,rfl⟩
      · rintro ⟨-,link,expr,held,read,named⟩
        cases held
        rw [number] at read
        cases read
        exact named
    · rw [Dict.get?_set_ne Dict.empty "INT" first]
      refine ⟨nofun,fun ⟨_,link,_,held,_⟩ => ?_⟩
      have listed := Dict.mem_entries_of_ofList ((Dict.get?_eq_some_iff _ _ _).mp held)
      simp only [List.mem_cons,Prod.mk.injEq,List.not_mem_nil,or_false] at listed
      rcases listed with ⟨same,-⟩ | ⟨-,other⟩
      · exact absurd same first
      · cases other

end Dinkster.LinkedTypes
