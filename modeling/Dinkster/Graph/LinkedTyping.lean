import Dinkster.Graph.LinkedTypes
import Dinkster.Graph.Plan
import Dinkster.Lib.Passes

/-! The types that linked outputs end with: on a graph without cycles they are the only ones under
which each output has its declared type with what its node's links bind, in whatever order the nodes
are listed, and validation and execution see the same interface of every region. -/
namespace Dinkster.LinkedTypes
open Fallible TypeExpr Dinkster.Dynamic Solve Plan

/-- The type of every output of every node. -/
abbrev Types := String → String → Option TypeExpr

section
variable (level : Level)

def declared : Types := fun n o => ((level.effective.get? n).bind (·.output o)).map (·.type)

def assigned (resolved : Dict String Outputs) : Types := fun n o =>
  match (resolved.get? n).bind (·.get? o) with
  | some type => some type
  | none => declared level n o

/-- What a link reads: a port, an output of a region, or an output of a node. -/
def typeOf (types : Types) (link : Link) : Option TypeExpr :=
  if link.nodeId = portsNodeId then regionPortType level.ports link.outputId
  else
    match level.interfaces.get? link.nodeId with
    | some nested => (nested.get? link.outputId).join
    | none => types link.nodeId link.outputId

theorem sourceType_eq (resolved : Dict String Outputs) :
    sourceType level resolved = typeOf level (assigned level resolved) := by
  funext link
  rfl

end

section
variable (includeTypedLiterals : Bool)

/-- Every generic input that is present carries a type, and these are the input types. -/
structure Linked (schema : ValidSchema) (source : Link → Option TypeExpr) (node : GraphNode)
    (inputTypes : Dict String String) : Prop where
  all : ∀ i v, (Dict.ofList node.inputs).get? i = some v → isGeneric schema i = true →
    ∃ typeId, carried includeTypedLiterals source v = some typeId
  each : ∀ i, inputTypes.get? i = if isGeneric schema i then
    ((Dict.ofList node.inputs).get? i).bind (carried includeTypedLiterals source) else none

variable (level : Level) (nodes : Nodes)

/-- The links of a node bind its variables, no output fails under the bindings, and this output
becomes `type`. -/
def Instance (types : Types) (n : String) (schema : ValidSchema) (output : OutputSpec)
    (type : TypeExpr) : Prop :=
  ∃ node inputTypes bindings, nodes.get? n = some (.node node) ∧
    Linked includeTypedLiterals schema (typeOf level types) node inputTypes ∧
    bindTypeVariables schema.solverInputs inputTypes = .ok bindings ∧
    (∀ other ∈ schema.1.outputs, ∃ found, resolvedTypeExpr bindings other.type = .ok found) ∧
    resolvedTypeExpr bindings output.type = .ok (some type)

/-- Every output has its declared type, instantiated where the links of its node do so. -/
structure WellTyped (types : Types) : Prop where
  only : ∀ n o, declared level n o = none → types n o = none
  outputs : ∀ n schema, level.effective.get? n = some schema → ∀ output ∈ schema.1.outputs,
    ∃ type, types n output.id = some type ∧
      (Instance includeTypedLiterals level nodes types n schema output type ∨
        type = output.type ∧
          ∀ other, ¬ Instance includeTypedLiterals level nodes types n schema output other)

end

section
variable {includeTypedLiterals : Bool} {schema : ValidSchema} {source : Link → Option TypeExpr}

private theorem foldlM_inputType {entries : List (String × InputValue)}
    (distinct : (entries.map (·.1)).Nodup) (before : Dict String String) :
    (∃ after, entries.foldlM (inputType includeTypedLiterals schema source) before = some after ∧
      (∀ e ∈ entries, isGeneric schema e.1 = true →
        ∃ typeId, carried includeTypedLiterals source e.2 = some typeId ∧
          after.get? e.1 = some typeId) ∧
      ∀ i, (∀ e ∈ entries, e.1 = i → isGeneric schema i = false) →
        after.get? i = before.get? i) ∨
    (entries.foldlM (inputType includeTypedLiterals schema source) before = none ∧
      ∃ e ∈ entries, isGeneric schema e.1 = true ∧
        carried includeTypedLiterals source e.2 = none) := by
  induction entries generalizing before with
  | nil => exact .inl ⟨before,rfl,nofun,fun _ _ => rfl⟩
  | cons e rest ih =>
    obtain ⟨fresh,distinct⟩ := List.nodup_cons.mp distinct
    rw [List.foldlM_cons,inputType]
    by_cases generic : isGeneric schema e.1 = true
    · rw [if_pos generic]
      cases here : carried includeTypedLiterals source e.2 with
      | none => exact .inr ⟨rfl,e,List.mem_cons_self,generic,here⟩
      | some typeId =>
        rcases ih distinct (before.set e.1 typeId) with ⟨after,done,all,others⟩ |
          ⟨failed,e',inside,bad⟩
        · refine .inl ⟨after,done,List.forall_mem_cons.mpr ⟨fun _ => ⟨typeId,here,?_⟩,all⟩,?_⟩
          · rw [others e.1 fun e' inside same =>
                absurd (List.mem_map.mpr ⟨e',inside,same⟩) fresh,Dict.get?_set_self]
          · intro i plain
            have ne : i ≠ e.1 := by
              rintro rfl
              exact Bool.false_ne_true ((plain e List.mem_cons_self rfl).symm.trans generic)
            rw [others i fun e' inside => plain e' (List.mem_cons_of_mem e inside),
              Dict.get?_set_ne before typeId ne]
        · exact .inr ⟨failed,e',List.mem_cons_of_mem e inside,bad⟩
    · rw [if_neg generic]
      rcases ih distinct before with ⟨after,done,all,others⟩ | ⟨failed,e',inside,bad⟩
      · refine .inl ⟨after,done,List.forall_mem_cons.mpr ⟨fun is => absurd is generic,all⟩,?_⟩
        exact fun i plain => others i fun e' inside => plain e' (List.mem_cons_of_mem e inside)
      · exact .inr ⟨failed,e',List.mem_cons_of_mem e inside,bad⟩

theorem linkedInputTypes_spec (node : GraphNode) :
    (∃ inputTypes, linkedInputTypes includeTypedLiterals schema source node = some inputTypes ∧
      Linked includeTypedLiterals schema source node inputTypes) ∨
    (linkedInputTypes includeTypedLiterals schema source node = none ∧
      ∀ inputTypes, ¬ Linked includeTypedLiterals schema source node inputTypes) := by
  rcases foldlM_inputType (Dict.ofList node.inputs).distinct Dict.empty with
    ⟨after,done,all,others⟩ | ⟨failed,e,inside,generic,none_⟩
  · refine .inl ⟨after,done,fun i v found generic => ?_,fun i => ?_⟩
    · obtain ⟨typeId,here,-⟩ := all (i,v) ((Dict.get?_eq_some_iff _ _ _).mp found) generic
      exact ⟨typeId,here⟩
    · by_cases generic : isGeneric schema i = true
      · rw [if_pos generic]
        cases found : (Dict.ofList node.inputs).get? i with
        | none =>
          refine others i fun e inside same => ?_
          have present := (Dict.get?_eq_some_iff _ e.1 e.2).mpr inside
          rw [same,found] at present
          cases present
        | some v =>
          obtain ⟨typeId,here,held⟩ := all (i,v) ((Dict.get?_eq_some_iff _ _ _).mp found) generic
          exact held.trans here.symm
      · rw [if_neg generic]
        exact others i fun _ _ _ => Bool.eq_false_iff.mpr generic
  · refine .inr ⟨failed,fun inputTypes linked => ?_⟩
    obtain ⟨typeId,here⟩ := linked.all e.1 e.2 ((Dict.get?_eq_some_iff _ _ _).mpr inside) generic
    rw [none_] at here
    cases here

theorem Linked.bind_eq {node : GraphNode} {inputTypes inputTypes' : Dict String String}
    (linked : Linked includeTypedLiterals schema source node inputTypes)
    (linked' : Linked includeTypedLiterals schema source node inputTypes') :
    bindTypeVariables schema.solverInputs inputTypes =
      bindTypeVariables schema.solverInputs inputTypes' := by
  have same : bindInput inputTypes = bindInput inputTypes' := by
    funext bindings spec
    rw [bindInput,bindInput,linked.each spec.id,linked'.each spec.id]
  rw [bindTypeVariables,bindTypeVariables,same]

end

private theorem foldlM_concreteOutput {bindings : Solve.Bindings} {outputs : List OutputSpec}
    (distinct : (outputs.map (·.id)).Nodup) {before after : Outputs}
    (free : ∀ output ∈ outputs, before.get? output.id = none)
    (done : outputs.foldlM (concreteOutput bindings) before = .ok after) :
    (∀ output ∈ outputs, resolvedTypeExpr bindings output.type = .ok (after.get? output.id)) ∧
      ∀ o, (∀ output ∈ outputs, output.id ≠ o) → after.get? o = before.get? o := by
  induction outputs generalizing before with
  | nil =>
    cases done
    exact ⟨nofun,fun _ _ => rfl⟩
  | cons output rest ih =>
    obtain ⟨fresh,distinct⟩ := List.nodup_cons.mp distinct
    rw [List.foldlM_cons] at done
    obtain ⟨next,here,later⟩ := bind_ok.mp done
    obtain ⟨concrete,resolved,next_⟩ := map_ok.mp here
    have others : ∀ o, o ≠ output.id → next.get? o = before.get? o := by
      intro o ne
      subst next_
      cases concrete with
      | none => rfl
      | some type => exact Dict.get?_set_ne before type ne
    have own : next.get? output.id = concrete := by
      subst next_
      cases concrete with
      | none => exact free output List.mem_cons_self
      | some type => exact Dict.get?_set_self before output.id type
    have apart : ∀ other ∈ rest, other.id ≠ output.id := fun other inside same =>
      fresh (List.mem_map.mpr ⟨other,inside,same⟩)
    obtain ⟨all,kept⟩ := ih distinct (fun other inside => by
      rw [others _ (apart other inside)]
      exact free other (List.mem_cons_of_mem output inside)) later
    refine ⟨List.forall_mem_cons.mpr ⟨?_,all⟩,fun o other => ?_⟩
    · rw [kept output.id apart,own]
      exact resolved
    · rw [kept o fun output' inside => other output' (List.mem_cons_of_mem output inside)]
      exact others o (Ne.symm (other output List.mem_cons_self))

theorem concreteOutputs_ok {schema : ValidSchema} {bindings : Solve.Bindings} {outputs : Outputs}
    (done : concreteOutputs schema bindings = .ok outputs) :
    (∀ output ∈ schema.1.outputs,
      resolvedTypeExpr bindings output.type = .ok (outputs.get? output.id)) ∧
      ∀ o, (∀ output ∈ schema.1.outputs, output.id ≠ o) → outputs.get? o = none :=
  foldlM_concreteOutput schema.2.outputIds (fun _ _ => rfl) done

theorem concreteOutputs_error {schema : ValidSchema} {bindings : Solve.Bindings}
    {error : TypeSolveError}
    (done : concreteOutputs schema bindings = .error error) :
    ∃ output ∈ schema.1.outputs, ∀ found,
      resolvedTypeExpr bindings output.type ≠ .ok found := by
  by_contra none_
  push Not at none_
  have total : ∀ (outputs : List OutputSpec) (before : Outputs),
      (∀ output ∈ outputs, ∃ found, resolvedTypeExpr bindings output.type = .ok found) →
        ∃ after, outputs.foldlM (concreteOutput bindings) before = .ok after := by
    intro outputs
    induction outputs with
    | nil => exact fun before _ => ⟨before,rfl⟩
    | cons output rest ih =>
      intro before each
      obtain ⟨found,resolved⟩ := each output List.mem_cons_self
      obtain ⟨next,here⟩ : ∃ next, concreteOutput bindings before output = .ok next :=
        ⟨_,map_ok.mpr ⟨found,resolved,rfl⟩⟩
      obtain ⟨after,later⟩ := ih next fun other inside =>
        each other (List.mem_cons_of_mem output inside)
      exact ⟨after,bind_ok.mpr ⟨next,here,later⟩⟩
  obtain ⟨after,reached⟩ := total schema.1.outputs Dict.empty none_
  rw [concreteOutputs,reached] at done
  cases done

theorem output_self {schema : ValidSchema} {output : OutputSpec}
    (inside : output ∈ schema.1.outputs) : schema.output output.id = some output := by
  obtain ⟨found,here⟩ : ∃ found, schema.output output.id = some found := by
    rw [ValidSchema.output,← Option.isSome_iff_exists,List.find?_isSome]
    exact ⟨output,inside,decide_eq_true rfl⟩
  rw [ValidSchema.output] at here ⊢
  have same := List.find?_some here
  rw [decide_eq_true_eq] at same
  rw [here,List.inj_on_of_nodup_map schema.2.outputIds (List.mem_of_find?_eq_some here) inside same]

def Refines (source source' : Link → Option TypeExpr) : Prop :=
  ∀ link typeId, (source link).bind runtimeTypeId = some typeId →
    (source' link).bind runtimeTypeId = some typeId

section
variable {includeTypedLiterals : Bool} {level : Level}

private theorem foldlM_some {α β : Type} {f g : β → α → Option β}
    (more : ∀ b a c, f b a = some c → g b a = some c) {xs : List α} {b c : β}
    (done : xs.foldlM f b = some c) : xs.foldlM g b = some c := by
  induction xs generalizing b with
  | nil => exact done
  | cons x xs ih =>
    rw [List.foldlM_cons] at done ⊢
    obtain ⟨next,here,later⟩ := Option.bind_eq_some_iff.mp done
    exact Option.bind_eq_some_iff.mpr ⟨next,more b x next here,ih later⟩

theorem Refines.carried {source source' : Link → Option TypeExpr} (refines : Refines source source')
    {v : InputValue} {typeId : String}
    (here : LinkedTypes.carried includeTypedLiterals source v = some typeId) :
    LinkedTypes.carried includeTypedLiterals source' v = some typeId := by
  cases v with
  | link link => exact refines link typeId here
  | typed literal => exact here
  | literal _ => cases here

theorem Refines.findOutputs {source source' : Link → Option TypeExpr}
    (refines : Refines source source') {schema : ValidSchema} {node : GraphNode} {outputs : Outputs}
    (found : LinkedTypes.findOutputs includeTypedLiterals schema source node = .outputs outputs) :
    LinkedTypes.findOutputs includeTypedLiterals schema source' node = .outputs outputs := by
  cases linked : linkedInputTypes includeTypedLiterals schema source node with
  | none => simp [LinkedTypes.findOutputs,linked] at found
  | some inputTypes =>
    have kept : linkedInputTypes includeTypedLiterals schema source' node = some inputTypes := by
      refine foldlM_some (fun before entry after step => ?_) linked
      rw [inputType] at step ⊢
      split
      · rename_i generic
        rw [if_pos generic] at step
        obtain ⟨typeId,here,rfl⟩ := Option.map_eq_some_iff.mp step
        rw [refines.carried here]
        rfl
      · rename_i plain
        rw [if_neg plain] at step
        exact step
    rw [LinkedTypes.findOutputs] at found ⊢
    rw [linked] at found
    rw [kept]
    exact found

variable (includeTypedLiterals level)

/-- The outputs that a visit finds for its node, if there are any. -/
def filled (resolved : Dict String Outputs) (entry : String × AnyNode) : Option Outputs :=
  match entry.2 with
  | .region _ => none
  | .node node =>
    match level.effective.get? entry.1 with
    | none => none
    | some schema =>
      match findOutputs includeTypedLiterals schema (sourceType level resolved) node with
      | .outputs outputs => if outputs.entries = [] then none else some outputs
      | _ => none

variable {includeTypedLiterals level}

theorem filled_some {resolved : Dict String Outputs} {n : String} {node : AnyNode}
    {outputs : Outputs} : filled includeTypedLiterals level resolved (n,node) = some outputs ↔
      ∃ plain schema, node = .node plain ∧ level.effective.get? n = some schema ∧
        findOutputs includeTypedLiterals schema (sourceType level resolved) plain =
          .outputs outputs ∧ outputs.entries ≠ [] := by
  unfold filled
  cases node with
  | region _ => simp
  | node plain =>
    cases known : level.effective.get? n with
    | none => simp
    | some schema =>
      cases found : findOutputs includeTypedLiterals schema (sourceType level resolved) plain with
      | «open» => simp [found]
      | invalid error => simp [found]
      | outputs others =>
        constructor
        · intro held
          simp only [found] at held
          split at held
          · cases held
          · rename_i some_
            cases held
            exact ⟨plain,schema,rfl,rfl,found,some_⟩
        · rintro ⟨_,_,⟨⟩,⟨⟩,here,some_⟩
          obtain rfl := Found.outputs.inj (found.symm.trans here)
          simp only [found]
          rw [if_neg some_]

/-- A round without its diagnostics. -/
def Round.state (round : Round) : Passes.State String Outputs := ⟨round.resolved,round.changed⟩

theorem visitNode_state (round : Round) (entry : String × AnyNode) :
    (visitNode level includeTypedLiterals round entry).state =
      Passes.visit (filled includeTypedLiterals level) round.state entry := by
  unfold visitNode Passes.visit filled Round.state
  obtain ⟨n,node⟩ := entry
  cases node with
  | region _ => rfl
  | node plain =>
    cases known : level.effective.get? n with
    | none => rfl
    | some schema =>
      simp only
      cases found : findOutputs includeTypedLiterals schema (sourceType level round.resolved)
          plain with
      | «open» => rfl
      | invalid error => rfl
      | outputs outputs =>
        by_cases none_ : outputs.entries = []
        · simp [none_]
        · by_cases same : round.resolved.get? n = some outputs <;> simp [none_,same]

theorem rounds_resolved (nodes : Nodes) (n : Nat) (round : Round) :
    (rounds level includeTypedLiterals nodes n round).resolved =
      Passes.passes (filled includeTypedLiterals level) nodes n round.resolved := by
  have one : ∀ (entries : List (String × AnyNode)) (round : Round),
      (entries.foldl (visitNode level includeTypedLiterals) round).state =
        entries.foldl (Passes.visit (filled includeTypedLiterals level)) round.state := by
    intro entries
    induction entries with
    | nil => exact fun _ => rfl
    | cons entry rest ih =>
      intro round
      rw [List.foldl_cons,List.foldl_cons,ih,visitNode_state]
  induction n generalizing round with
  | zero => rfl
  | succ n ih =>
    let next := nodes.entries.foldl (visitNode level includeTypedLiterals)
      { round with changed := false }
    have whole : Passes.pass (filled includeTypedLiterals level) nodes round.resolved =
      next.state := (one nodes.entries { round with changed := false }).symm
    rw [rounds,Passes.passes,whole]
    by_cases changed : next.changed = true
    · exact (congrArg Round.resolved (if_pos changed)).trans ((ih next).trans (if_pos changed).symm)
    · exact (congrArg Round.resolved (if_neg changed)).trans (if_neg changed).symm

theorem findOutputs_outputs {schema : ValidSchema} {source : Link → Option TypeExpr}
    {node : GraphNode} {outputs : Outputs} :
    findOutputs includeTypedLiterals schema source node = .outputs outputs ↔
      ∃ inputTypes bindings,
        linkedInputTypes includeTypedLiterals schema source node = some inputTypes ∧
        bindTypeVariables schema.solverInputs inputTypes = .ok bindings ∧
        concreteOutputs schema bindings = .ok outputs := by
  unfold findOutputs
  cases linked : linkedInputTypes includeTypedLiterals schema source node with
  | none => simp
  | some inputTypes =>
    cases bound : bindTypeVariables schema.solverInputs inputTypes with
    | error _ => simp [bound]
    | ok bindings =>
      cases made : concreteOutputs schema bindings with
      | error _ => simp [bound,made]
      | ok found => simp [bound,made]

theorem filled_steady (nodes : Nodes) :
    Passes.Steady (filled includeTypedLiterals level) nodes := by
  rintro resolved - ⟨n,node⟩ - outputs free here ⟨m,node'⟩ - w found
  obtain ⟨plain,schema,rfl,known,mine,-⟩ := filled_some.mp here
  obtain ⟨plain',schema',rfl,known',theirs,some'⟩ := filled_some.mp found
  refine filled_some.mpr ⟨plain',schema',rfl,known',Refines.findOutputs ?_ theirs,some'⟩
  intro link typeId named
  by_cases same : link.nodeId = n
  · subst same
    unfold sourceType at named ⊢
    split
    · rename_i port
      rwa [if_pos port] at named
    · rename_i inner
      rw [if_neg inner] at named
      split
      · rename_i region
        rwa [region] at named
      · rename_i region
        simp only [region,free,Option.bind_none,known,Option.bind_some] at named
        rw [Dict.get?_set_self,Option.bind_some]
        cases typed : outputs.get? link.outputId with
        | none =>
          simp only [known,Option.bind_some]
          exact named
        | some type =>
          obtain ⟨_,bindings,-,-,made⟩ := findOutputs_outputs.mp mine
          obtain ⟨expr,declared_,id_⟩ := Option.bind_eq_some_iff.mp named
          obtain ⟨spec,output,rfl⟩ := Option.map_eq_some_iff.mp declared_
          rw [ValidSchema.output] at output
          have is := List.find?_some output
          rw [decide_eq_true_eq] at is
          have resolves := (concreteOutputs_ok made).1 spec (List.mem_of_find?_eq_some output)
          rw [is,typed] at resolves
          exact resolved_runtime spec.type type typeId resolves id_
  · have unread :
        sourceType level (resolved.set n outputs) link = sourceType level resolved link := by
      unfold sourceType
      rw [Dict.get?_set_ne resolved outputs same]
    rw [unread]
    exact named

end

end Dinkster.LinkedTypes
