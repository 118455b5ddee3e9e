import Dinkster.Lib.Dict
import Dinkster.Lib.Fallible
import Dinkster.Values.Model

/-! The inputs of a node before it is invoked: links, literals and defaults become values, and the
absent policy of every input decides what an absent value means for the node. -/
namespace Dinkster.NodeInputs
open Json

structure ErrorHint where
  code : String
  message : String
  suggestion : Option String

structure NodeError where
  nodeId : String
  nodeType : String
  message : String
  traceback : String := ""
  hints : List ErrorHint := []

/-- What leaves a call instead of its result: an `ExecutionError`, or any other exception. -/
inductive Fault
  | execution (error : NodeError)
  | other (kind text : String)

inductive AbsentPolicy
  | skip
  | omit
  | accept
  | fail
  deriving DecidableEq

/-- What the engine reads of an input: `Ty` is its type expression, `Raw` a plain value. -/
structure InputSpec (Ty Raw : Type) where
  id : String
  type : Ty
  required : Bool
  default : Option Raw
  onAbsent : Option AbsentPolicy
  lazy : Bool

/-- `absent_policy` -/
def InputSpec.absentPolicy {Ty Raw : Type} (spec : InputSpec Ty Raw) : AbsentPolicy :=
  match spec.onAbsent with
  | some policy => policy
  | none => if spec.required then .skip else .omit

/-- An entry of a node's `inputs`. -/
inductive Input (Raw : Type)
  | link (nodeId outputId : String)
  | typed (typeId : String) (value : Raw)
  | literal (value : Raw)

structure GraphNode (Raw : Type) where
  nodeType : String
  inputs : Dict String (Input Raw)

def coreAbsent : String := "core.absent"

section

variable {Obj : Type}

/-- `is_absent` -/
def isAbsent (value : Value Obj) : Bool := value.typeId = coreAbsent

/-- `str(value.meta.get(key, ""))`, for the texts that an absent envelope carries. -/
def metaText (info : ValueMeta) (key : String) : String :=
  match info with
  | .json entries => match entries.lookup key with
    | some (.str text) => text
    | _ => ""
  | .pickled _ => ""

def absentOrigin (value : Value Obj) : String := metaText value.info "absent.origin"

def absentReason (value : Value Obj) : String := metaText value.info "absent.reason"

end

variable {Ty Raw Obj : Type}

/-- The type registry as the engine uses it; `admitInput` is `_admit_input_value`. -/
structure Registry (Ty Raw Obj : Type) where
  runtimeTypeId : Ty → Option String
  wrap : String → Raw → Except Fault (Value Obj)
  admitInput : String → String → InputSpec Ty Raw → Value Obj → Except Fault (Value Obj)

/-- The outputs of the nodes that have run. -/
abbrev Produced (Obj : Type) := String → Option (Dict String (Value Obj))

variable (registry : Registry Ty Raw Obj)

def wrapDeclared (nodeId what : String) (spec : InputSpec Ty Raw) (raw : Raw) :
    Except Fault (Value Obj) :=
  match registry.runtimeTypeId spec.type with
  | none =>
    .error (.other "ValueError"
      (nodeId ++ ": " ++ what ++ " on non-runtime-resolvable input " ++ spec.id))
  | some runtime => registry.wrap runtime raw

/-- One pass of the loop of `_resolve_inputs`; `none` leaves the input out. -/
def resolveInput (produced : Produced Obj) (nodeId : String) (node : GraphNode Raw)
    (spec : InputSpec Ty Raw) : Except Fault (Option (Value Obj)) :=
  match node.inputs.get? spec.id with
  | none =>
    match spec.default with
    | some raw => (wrapDeclared registry nodeId "literal" spec raw).map some
    | none =>
      if spec.required then .error (.other "KeyError" (nodeId ++ ": missing input " ++ spec.id))
      else .ok none
  | some (.link source output) =>
    match (produced source).bind (·.get? output) with
    | none => .error (.other "KeyError" source)
    | some value => (registry.admitInput nodeId node.nodeType spec value).map some
  | some (.typed typeId raw) => do
    let value ← registry.wrap typeId raw
    (registry.admitInput nodeId node.nodeType spec value).map some
  | some (.literal raw) => (wrapDeclared registry nodeId "literal" spec raw).map some

/-- `_resolve_inputs` -/
def resolveInputs (produced : Produced Obj) (nodeId : String) (node : GraphNode Raw)
    (specs : List (InputSpec Ty Raw)) : Except Fault (Dict String (Value Obj)) :=
  specs.foldlM (fun resolved spec => do
    match ← resolveInput registry produced nodeId node spec with
    | none => pure resolved
    | some value => pure (resolved.set spec.id value)) Dict.empty

/-- The input that skips the node, with the origin and the reason of its absent value. -/
structure Skip where
  inputId : String
  origin : String
  reason : String

def absentRefusal (label nodeType inputId origin reason : String) : NodeError :=
  ⟨label,nodeType,"input '" ++ inputId ++ "' is absent - no value was produced by " ++
    (if origin = "" then "its producer" else origin) ++
    (if reason = "" then "" else " (" ++ reason ++ ")") ++
    " - and this input declares on_absent='fail'","",[]⟩

def applyAbsentPolicy (label nodeType : String) (state : Dict String (Value Obj) × Option Skip)
    (spec : InputSpec Ty Raw) : Except Fault (Dict String (Value Obj) × Option Skip) :=
  match state.1.get? spec.id with
  | none => .ok state
  | some value =>
    if isAbsent value then
      match spec.absentPolicy with
      | .fail => .error (.execution
          (absentRefusal label nodeType spec.id (absentOrigin value) (absentReason value)))
      | .omit =>
        match spec.default with
        | some raw => (wrapDeclared registry label "default" spec raw).map fun wrapped =>
            (state.1.set spec.id wrapped,state.2)
        | none => .ok (state.1.erase spec.id,state.2)
      | .skip => .ok (state.1,
          state.2.orElse fun _ => some ⟨spec.id,absentOrigin value,absentReason value⟩)
      | .accept => .ok state
    else .ok state

/-- `_apply_absent_policies`: the inputs it leaves and the skip it reports. -/
def applyAbsentPolicies (label nodeType : String) (specs : List (InputSpec Ty Raw))
    (inputs : Dict String (Value Obj)) : Except Fault (Dict String (Value Obj) × Option Skip) :=
  specs.foldlM (applyAbsentPolicy registry label nodeType) (inputs,none)

end Dinkster.NodeInputs
