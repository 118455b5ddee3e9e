import Dinkster.Graph.Wire

/-! Graph documents survive their wire form: whatever the encoder accepts is read back,
and whatever the decoder accepts is written again as the same graph. -/
namespace Dinkster
open Json Json.Object Fallible

/-- A typed literal names a type. -/
def InputValue.validIds : InputValue → Bool
  | typed t => t.typeId ≠ ""
  | link _ => true
  | literal _ => true

def inputsValid (inputs : Inputs) : Bool := inputs.all fun e => e.2.validIds

mutual

/-- Node ids and the type ids of typed literals are valid at every nesting level. -/
def Graph.validIds : Graph → Bool
  | ⟨nodes⟩ => nodesValid nodes

def nodesValid : List (String × AnyNode) → Bool
  | [] => true
  | (nodeId,node) :: rest => validNodeId nodeId && nodeValid node && nodesValid rest

def nodeValid : AnyNode → Bool
  | .node node => inputsValid node.inputs
  | .region region => regionValid region

def regionValid : RegionNode Graph → Bool
  | ⟨_,body,_,inputs,_,_,_,_,_,_,_⟩ => inputsValid inputs && body.validIds

end

private theorem toDigits_leading (n : Nat) (positive : 0 < n) :
    (Nat.toDigits 10 n).head? ≠ some '0' := by
  induction n using Nat.strongRecOn with
  | ind n ih =>
    by_cases small : n < 10
    · rw [Nat.toDigits_of_lt_base small]
      interval_cases n <;> decide
    · rw [Nat.toDigits_of_base_le (by omega) (by omega),
        List.head?_append_of_ne_nil _ Nat.toDigits_ne_nil]
      exact ih (n / 10) (by omega) (by omega)

theorem canonicalNat_toDigits (n : Nat) : canonicalNat (Nat.toDigits 10 n) = true := by
  rcases Nat.eq_zero_or_pos n with rfl | positive
  · decide
  · have leading := toDigits_leading n positive
    have digits : ∀ c ∈ Nat.toDigits 10 n, c.isDigit := fun c inside =>
      Nat.isDigit_of_mem_toDigits (by omega) (by omega) inside
    rcases chars : Nat.toDigits 10 n with _ | ⟨c,cs⟩
    · exact absurd chars Nat.toDigits_ne_nil
    · rw [chars] at leading digits
      have other : c ≠ '0' := fun same => leading (by rw [same]; rfl)
      have rest : cs.all Char.isDigit = true :=
        List.all_eq_true.mpr fun d inside => digits d (List.mem_cons_of_mem _ inside)
      unfold canonicalNat
      split
      · rename_i same
        cases same
      · rfl
      · rename_i same
        obtain ⟨rfl,rfl⟩ := List.cons.inj same
        simp only [other,digits c List.mem_cons_self,rest,ne_eq,not_false_eq_true,decide_true,
          Bool.and_self]

theorem canonicalDecimalInt_intText (n : Int) : canonicalDecimalInt (intText n) = some n := by
  cases n with
  | ofNat n =>
    have sign : ∀ digits, Nat.toDigits 10 n ≠ '-' :: digits := by
      intro digits same
      have digit := Nat.isDigit_of_mem_toDigits (by omega : 0 < 10) (by omega)
        (by rw [same]; exact List.mem_cons_self : '-' ∈ Nat.toDigits 10 n)
      cases digit
    rw [intText,canonicalDecimalInt.eq_2 _ sign,canonicalNat_toDigits,if_pos rfl,
      Nat.ofDigitChars_ten_toDigits]
    rfl
  | negSucc n =>
    simp only [intText,canonicalDecimalInt,canonicalNat_toDigits,if_true,
      Nat.ofDigitChars_ten_toDigits]
    rfl

theorem linkMarker_read (link : Link) :
    inputFromWire (.obj [(linkKey,linkToWire link)]) = .ok (.link link) := by
  cases link
  rfl

theorem typedMarker_read (typed : TypedLiteral) (named : typed.typeId ≠ "")
    (safe : refuseNestedUnsafeInts [typed.value] = .ok ()) :
    inputFromWire (.obj [(typedKey,.obj [("type",.str typed.typeId),("value",typed.value)])]) =
      .ok (.typed typed) := by
  have members : get? [("type",Json.Value.str typed.typeId),("value",typed.value)] "type" =
      some (.str typed.typeId) ∧
      get? [("type",Json.Value.str typed.typeId),("value",typed.value)] "value" =
        some typed.value := by
    constructor <;> simp [get?_cons]
  have read : typedMarkerFromWire
      (.obj [(typedKey,.obj [("type",.str typed.typeId),("value",typed.value)])])
      (.obj [("type",.str typed.typeId),("value",typed.value)]) = .ok (.typed typed) := by
    rw [typedMarkerFromWire,members.1,members.2]
    simp only [if_neg named,safe]
    rfl
  exact read

theorem intMarker_read (n : Int) (large : unsafeInt n = true)
    (bounded : decimalWireIntMin ≤ n ∧ n ≤ decimalWireIntMax) :
    inputFromWire (.obj [(intKey,.str (String.ofList (intText n)))]) = .ok (.literal (.int n)) := by
  have read : intMarkerFromWire (.obj [(intKey,.str (String.ofList (intText n)))])
      (.str (String.ofList (intText n))) = .ok (.literal (.int n)) := by
    rw [intMarkerFromWire,String.toList_ofList,canonicalDecimalInt_intText]
    simp only [large,not_true,if_false,if_pos bounded]
  exact read

theorem input_roundTrip (input : InputValue) (valid : input.validIds) (wire : Json.Value)
    (written : inputToWire input = .ok wire) : inputFromWire wire = .ok input := by
  cases input with
  | link link =>
    cases written
    exact linkMarker_read link
  | typed typed =>
    obtain ⟨_,safe,same⟩ := bind_ok.mp written
    cases same
    have named : typed.typeId ≠ "" := by simpa [InputValue.validIds] using valid
    exact typedMarker_read typed named safe
  | literal value =>
    cases value with
    | int n =>
      rw [inputToWire] at written
      cases large : unsafeInt n with
      | true =>
        rw [if_pos large] at written
        split at written
        · rename_i bounded
          cases written
          exact intMarker_read n large bounded
        · cases written
      | false =>
        rw [large] at written
        obtain ⟨_,safe,same⟩ := bind_ok.mp written
        cases same
        rw [inputFromWire,large]
        exact bind_ok.mpr ⟨(),safe,rfl⟩
    | obj members =>
      rw [inputToWire] at written
      split at written
      · cases written
      · rename_i plain
        obtain ⟨_,safe,same⟩ := bind_ok.mp written
        cases same
        rw [inputFromWire,if_pos (not_not.mp plain)]
        exact bind_ok.mpr ⟨(),safe,rfl⟩
    | null | bool | float | str | arr =>
      obtain ⟨_,safe,same⟩ := bind_ok.mp written
      cases same
      exact bind_ok.mpr ⟨(),safe,rfl⟩

theorem linkMarker_cases {value marker : Json.Value} {input : InputValue}
    (read : linkMarkerFromWire value marker = .ok input) : ∃ link, input = .link link := by
  unfold linkMarkerFromWire at read
  split at read
  · split at read
    · exact ⟨_,(Except.ok.inj read).symm⟩
    · cases read
  · cases read

theorem typedMarker_cases {value marker : Json.Value} {input : InputValue}
    (read : typedMarkerFromWire value marker = .ok input) :
    ∃ typed, input = .typed typed ∧ typed.typeId ≠ "" ∧
      refuseNestedUnsafeInts [typed.value] = .ok () := by
  unfold typedMarkerFromWire at read
  split at read
  · split at read
    · split at read
      · cases read
      · rename_i typeId stamped _ _ named
        obtain ⟨_,safe,same⟩ := bind_ok.mp read
        exact ⟨⟨typeId,stamped⟩,(Except.ok.inj same).symm,named,safe⟩
    · cases read
  · cases read

theorem intMarker_cases {value marker : Json.Value} {input : InputValue}
    (read : intMarkerFromWire value marker = .ok input) :
    ∃ n, input = .literal (.int n) ∧ unsafeInt n = true ∧ decimalWireIntMin ≤ n ∧
      n ≤ decimalWireIntMax := by
  unfold intMarkerFromWire at read
  split at read
  · split at read
    · cases read
    · rename_i decoded _
      split at read
      · cases read
      · rename_i large
        split at read
        · rename_i bounded
          exact ⟨decoded,(Except.ok.inj read).symm,by simpa using large,bounded⟩
        · cases read
  · cases read

/-- An object that carries a reserved key. -/
def isMarker : Json.Value → Bool
  | .obj members => !(reservedIn members).isEmpty
  | _ => false

theorem marker_cases {wire : Json.Value} {input : InputValue} (marker : isMarker wire)
    (read : inputFromWire wire = .ok input) :
    (∃ link, input = .link link) ∨
    (∃ typed, input = .typed typed ∧ typed.typeId ≠ "" ∧
      refuseNestedUnsafeInts [typed.value] = .ok ()) ∨
    (∃ n, input = .literal (.int n) ∧ unsafeInt n = true ∧ decimalWireIntMin ≤ n ∧
      n ≤ decimalWireIntMax) := by
  cases wire with
  | obj members =>
    have reserved : reservedIn members ≠ [] := by
      intro plain
      rw [isMarker,plain] at marker
      cases marker
    rw [inputFromWire,if_neg reserved] at read
    split at read
    · cases read
    · split at read
      · exact .inl (linkMarker_cases read)
      · exact .inr (.inl (typedMarker_cases read))
      · exact .inr (.inr (intMarker_cases read))
      · rename_i noLink noTyped noInt
        refine absurd ?_ reserved
        simp [reservedIn,noLink,noTyped,noInt]
  | null | bool | int | float | str | arr => cases marker

theorem plain_cases {wire : Json.Value} {input : InputValue} (plain : isMarker wire = false)
    (read : inputFromWire wire = .ok input) :
    input = .literal wire ∧ refuseNestedUnsafeInts [wire] = .ok () ∧
      ∀ n, wire = .int n → unsafeInt n = false := by
  cases wire with
  | obj members =>
    have reserved : reservedIn members = [] := by simpa [isMarker] using plain
    rw [inputFromWire,if_pos reserved] at read
    obtain ⟨_,safe,same⟩ := bind_ok.mp read
    exact ⟨(Except.ok.inj same).symm,safe,fun n same => by cases same⟩
  | int n =>
    rw [inputFromWire] at read
    split at read
    · cases read
    · rename_i small
      obtain ⟨_,safe,same⟩ := bind_ok.mp read
      refine ⟨(Except.ok.inj same).symm,safe,fun m same => ?_⟩
      rw [← Json.Value.int.inj same]
      simpa using small
  | null | bool | float | str | arr =>
    obtain ⟨_,safe,same⟩ := bind_ok.mp read
    exact ⟨(Except.ok.inj same).symm,safe,fun n same => by cases same⟩

theorem input_rewritable (wire : Json.Value) (input : InputValue)
    (read : inputFromWire wire = .ok input) :
    input.validIds ∧ ∃ again, inputToWire input = .ok again := by
  cases marker : isMarker wire with
  | true =>
    rcases marker_cases marker read with ⟨link,rfl⟩ | ⟨typed,rfl,named,safe⟩ |
      ⟨n,rfl,large,bounded⟩
    · exact ⟨rfl,_,rfl⟩
    · exact ⟨by simpa [InputValue.validIds] using named,_,bind_ok.mpr ⟨(),safe,rfl⟩⟩
    · refine ⟨rfl,.obj [(intKey,.str (String.ofList (intText n)))],?_⟩
      rw [inputToWire,if_pos large,if_pos bounded]
  | false =>
    obtain ⟨rfl,safe,small⟩ := plain_cases marker read
    refine ⟨rfl,?_⟩
    cases wire with
    | int n =>
      rw [inputToWire,small n rfl]
      exact ⟨_,bind_ok.mpr ⟨(),safe,rfl⟩⟩
    | obj members =>
      have reserved : reservedIn members = [] := by simpa [isMarker] using marker
      rw [inputToWire,if_neg (not_not.mpr reserved)]
      exact ⟨_,bind_ok.mpr ⟨(),safe,rfl⟩⟩
    | null | bool | float | str | arr => exact ⟨_,bind_ok.mpr ⟨(),safe,rfl⟩⟩

theorem literal_not_marker {value wire : Json.Value}
    (written : inputToWire (.literal value) = .ok wire) (marker : isMarker wire) :
    ∃ n, value = .int n ∧ unsafeInt n = true := by
  cases value with
  | int n =>
    rw [inputToWire] at written
    split at written
    · rename_i large
      exact ⟨n,rfl,large⟩
    · obtain ⟨_,safe,same⟩ := bind_ok.mp written
      cases same
      cases marker
  | obj members =>
    rw [inputToWire] at written
    split at written
    · cases written
    · rename_i plain
      obtain ⟨_,safe,same⟩ := bind_ok.mp written
      cases same
      rw [isMarker,not_not.mp plain] at marker
      cases marker
  | null | bool | float | str | arr =>
    obtain ⟨_,safe,same⟩ := bind_ok.mp written
    cases same
    cases marker

theorem inputs_roundTrip {inputs : Inputs} {wire : Object} (valid : inputsValid inputs)
    (written : inputsToWire inputs = .ok wire) : inputsFromWire wire = .ok inputs :=
  mapValues_inverse (fun e inside w forth =>
    input_roundTrip e.2 (List.all_eq_true.mp valid e inside) w forth) written

theorem inputs_rewritable {wire : Object} {inputs : Inputs} (read : inputsFromWire wire = .ok inputs) :
    inputsValid inputs ∧ ∃ again, inputsToWire inputs = .ok again := by
  have each : ∀ e ∈ inputs, e.2.validIds ∧ ∃ again, inputToWire e.2 = .ok again := by
    intro e inside
    obtain ⟨w,back⟩ := mapValues_image read e inside
    exact input_rewritable w e.2 back
  exact ⟨List.all_eq_true.mpr fun e inside => (each e inside).1,
    mapValues_total fun e inside => (each e inside).2⟩

theorem members_roundTrip (place : String) (members : List (String × List String)) :
    (members.map fun e => (e.1,stringsToWire e.2)).mapM (membersFromWire place) = .ok members :=
  mapM_inverse (f := fun e : String × List String => (e.1,stringsToWire e.2))
    (fun e => by simp only [membersFromWire,stringsToWire,asStrings_str]) members

theorem variants_roundTrip (place : String) (variants : List (String × String)) :
    (variants.map fun e => (e.1,Json.Value.str e.2)).mapM (variantFromWire place) = .ok variants :=
  mapM_inverse (f := fun e : String × String => (e.1,Json.Value.str e.2))
    (g := variantFromWire place) (fun _ => rfl) variants

private theorem optionalObject_read {α : Type} (xs : List α) (f : α → String × Json.Value)
    {found : Option Json.Value}
    (read : found = if xs ≠ [] then some (.obj (xs.map f)) else none) (what : String) :
    asObject (found.getD (.obj [])) what = .ok (xs.map f) := by
  rw [read]
  split
  · rfl
  · rename_i empty
    rw [not_not.mp empty]
    rfl

def graphNodeEntry (node : GraphNode) (inputs : Object) : Object :=
  [("nodeType",.str node.nodeType),("inputs",.obj inputs)] ++
    writtenIf (!node.outputMembers.isEmpty) "outputMembers"
      (.obj (node.outputMembers.map fun e => (e.1,stringsToWire e.2))) ++
    writtenIf (!node.slotVariants.isEmpty) "slotVariants"
      (.obj (node.slotVariants.map fun e => (e.1,.str e.2)))

theorem get?_graphNodeEntry (node : GraphNode) (inputs : Object) (key : String) :
    get? (graphNodeEntry node inputs) key =
      if key = "nodeType" then some (.str node.nodeType)
      else if key = "inputs" then some (.obj inputs)
      else if key = "outputMembers" ∧ node.outputMembers ≠ [] then
        some (.obj (node.outputMembers.map fun e => (e.1,stringsToWire e.2)))
      else if key = "slotVariants" ∧ node.slotVariants ≠ [] then
        some (.obj (node.slotVariants.map fun e => (e.1,.str e.2)))
      else none := by
  simp only [graphNodeEntry,List.cons_append,List.nil_append,get?_cons,get?_append,get?_writtenIf]
  grind

theorem graphNode_roundTrip (nodeId : String) {node : GraphNode} {wire : Json.Value}
    (valid : inputsValid node.inputs) (written : graphNodeToWire node = .ok wire) :
    ∃ entry, wire = .obj entry ∧ get? entry "region" = none ∧
      graphNodeFromWire nodeId entry = .ok node := by
  obtain ⟨inputs,inputsWritten,same⟩ := bind_ok.mp written
  have read := get?_graphNodeEntry node inputs
  refine ⟨graphNodeEntry node inputs,(Except.ok.inj same).symm,by simp [read],?_⟩
  rw [graphNodeFromWire]
  simp only [read "nodeType",if_true]
  rw [bind_ok]
  refine ⟨inputs,by simp [read,asObject],?_⟩
  rw [bind_ok]
  refine ⟨_,optionalObject_read node.outputMembers (fun e => (e.1,stringsToWire e.2))
    (by simp [read]) _,?_⟩
  rw [bind_ok]
  refine ⟨_,members_roundTrip _ node.outputMembers,?_⟩
  rw [bind_ok]
  refine ⟨_,optionalObject_read node.slotVariants (fun e => (e.1,.str e.2)) (by simp [read]) _,?_⟩
  rw [bind_ok]
  refine ⟨_,variants_roundTrip _ node.slotVariants,?_⟩
  rw [bind_ok]
  exact ⟨_,inputs_roundTrip valid inputsWritten,rfl⟩

theorem regionKind_read (what : String) (kind : RegionKind) :
    choiceFromWire regionKinds what (.str kind.value) = .ok kind := by
  cases kind <;> rfl

theorem binding_read (what : String) (binding : BindingMode) :
    choiceFromWire bindingModes what (.str binding.value) = .ok binding := by
  cases binding <;> rfl

theorem cachePolicy_read (what : String) (policy : CachePolicy) :
    choiceFromWire cachePolicies what (.str policy.value) = .ok policy := by
  cases policy <;> rfl

theorem outputMode_read (what : String) (mode : OutputMode) :
    choiceFromWire outputModes what (.str mode.value) = .ok mode := by
  cases mode <;> rfl

theorem link_read (link : Link) (what : String) : linkFromWire (linkToWire link) what = .ok link := by
  cases link
  rfl

theorem ports_roundTrip (place : String) (ports : List (String × PortType)) :
    (ports.map fun e => (e.1,Json.Value.obj (typeExprToWire e.2.expr))).mapM (portFromWire place) =
      .ok ports := by
  apply mapM_inverse
  rintro ⟨port,expr,wellFormed⟩
  have back := typeExpr_roundTrip expr wellFormed
  have read : portFromWire place (port,.obj (typeExprToWire expr)) =
      malformedPort place (.ok (port,⟨expr,wellFormed⟩)) := by
    unfold portFromWire
    congr 1
    refine bind_ok.mpr ⟨typeExprToWire expr,rfl,?_⟩
    split
    · rename_i other found
      rw [back] at found
      cases found
      rfl
    · rename_i found
      rw [back] at found
      cases found
  exact read

theorem outputs_roundTrip (place : String) (outputs : List (String × RegionOutput)) :
    (outputs.map fun e => (e.1,outputToWire e.2)).mapM (outputFromWire place) = .ok outputs := by
  apply mapM_inverse
  rintro ⟨id,source,mode⟩
  refine bind_ok.mpr ⟨[("source",linkToWire source),("mode",.str mode.value)],rfl,?_⟩
  refine bind_ok.mpr ⟨mode,?_,?_⟩
  · rw [show get? [("source",linkToWire source),("mode",Json.Value.str mode.value)] "mode" =
      some (.str mode.value) by simp [get?_cons]]
    exact outputMode_read _ mode
  · refine bind_ok.mpr ⟨source,?_,rfl⟩
    rw [get?_cons,if_pos rfl]
    exact link_read source _

def regionMembers (region : RegionNode Graph) (inputs : Object) (body : Json.Value) : Object :=
  [("kind",.str region.kind.value),
    ("ports",.obj (region.ports.map fun e => (e.1,.obj (typeExprToWire e.2.expr)))),
    ("inputs",.obj inputs),
    ("body",body),
    ("outputs",.obj (region.outputs.map fun e => (e.1,outputToWire e.2)))] ++
  writtenIf (!region.elementPorts.isEmpty) "elementPorts" (stringsToWire region.elementPorts) ++
  writtenIf (!region.statePorts.isEmpty) "statePorts" (stringsToWire region.statePorts) ++
  writtenIf (region.binding ≠ .zip) "binding" (.str region.binding.value) ++
  writtenIf (region.cachePolicy ≠ .reuse) "cachePolicy" (.str region.cachePolicy.value) ++
  optionalInt? "maxIterations" region.maxIterations ++
  optionalLink? "continueSource" region.continueSource

theorem get?_optionalInt (key other : String) (n : Option Int) :
    get? (optionalInt? other n) key = if key = other then n.map .int else none := by
  cases n <;> simp [optionalInt?,get?_cons]

theorem get?_optionalLink (key other : String) (link : Option Link) :
    get? (optionalLink? other link) key = if key = other then link.map linkToWire else none := by
  cases link <;> simp [optionalLink?,get?_cons]

theorem get?_regionMembers (region : RegionNode Graph) (inputs : Object) (body : Json.Value)
    (key : String) : get? (regionMembers region inputs body) key =
      if key = "kind" then some (.str region.kind.value)
      else if key = "ports" then
        some (.obj (region.ports.map fun e => (e.1,.obj (typeExprToWire e.2.expr))))
      else if key = "inputs" then some (.obj inputs)
      else if key = "body" then some body
      else if key = "outputs" then
        some (.obj (region.outputs.map fun e => (e.1,outputToWire e.2)))
      else if key = "elementPorts" ∧ region.elementPorts ≠ [] then
        some (stringsToWire region.elementPorts)
      else if key = "statePorts" ∧ region.statePorts ≠ [] then
        some (stringsToWire region.statePorts)
      else if key = "binding" ∧ region.binding ≠ .zip then some (.str region.binding.value)
      else if key = "cachePolicy" ∧ region.cachePolicy ≠ .reuse then
        some (.str region.cachePolicy.value)
      else if key = "maxIterations" then region.maxIterations.map .int
      else if key = "continueSource" then region.continueSource.map linkToWire
      else none := by
  simp only [regionMembers,List.cons_append,List.nil_append,List.append_assoc,get?_cons,
    get?_writtenIf_append,Bool.not_eq_true',List.isEmpty_eq_false_iff,decide_eq_true_eq]
  rw [get?_append,get?_optionalInt,get?_optionalLink]
  by_cases last : key = "maxIterations"
  · subst last
    simp
  · simp only [if_neg last,Option.none_or]

theorem region_written {region : RegionNode Graph} {inputs : Object} {body : Json.Value}
    (inputsWritten : inputsToWire region.inputs = .ok inputs)
    (bodyWritten : graphToWire region.body = .ok body) :
    regionToWire region = .ok (.obj [("region",.obj (regionMembers region inputs body))]) := by
  cases region
  exact bind_ok.mpr ⟨inputs,inputsWritten,bind_ok.mpr ⟨body,bodyWritten,rfl⟩⟩

private theorem optionalStrList_read {found : Option Json.Value} {ss : List String}
    (read : found = if ss ≠ [] then some (stringsToWire ss) else none) (what : String) :
    strList (found.getD (.arr [])) what = .ok ss := by
  rw [read]
  split
  · simp only [Option.getD_some,stringsToWire,strList,asStrings_str]
  · rename_i empty
    rw [not_not.mp empty]
    rfl

private theorem optionalChoice_read {α : Type} [DecidableEq α] {choices : List (String × α)}
    {what s d : String} {a default : α} {found : Option Json.Value}
    (read : found = if a ≠ default then some (.str s) else none)
    (back : choiceFromWire choices what (.str s) = .ok a)
    (fallback : choiceFromWire choices what (.str d) = .ok default) :
    choiceFromWire choices what (found.getD (.str d)) = .ok a := by
  rw [read]
  split
  · exact back
  · rename_i same
    rw [not_not.mp same]
    exact fallback

theorem maxIterations_read (place : String) (n : Option Int) :
    maxIterationsFromWire place (n.map .int) = .ok n := by
  cases n <;> rfl

theorem continueSource_read (place : String) (link : Option Link) :
    continueSourceFromWire place (link.map linkToWire) = .ok link := by
  cases link <;> rfl

theorem region_roundTrip (nodeId : String) {region : RegionNode Graph} {inputs : Object}
    {body : Json.Value} (valid : inputsValid region.inputs)
    (inputsWritten : inputsToWire region.inputs = .ok inputs)
    (bodyBack : graphFromWire body = .ok region.body) :
    regionFromWire nodeId (regionMembers region inputs body) = .ok region := by
  have read := get?_regionMembers region inputs body
  rw [regionFromWire,bind_ok]
  refine ⟨region.kind,by simp only [read,if_true]; exact regionKind_read _ _,?_⟩
  rw [bind_ok]
  refine ⟨region.binding,optionalChoice_read (by simp [read]) (binding_read _ _) rfl,?_⟩
  rw [bind_ok]
  refine ⟨region.cachePolicy,optionalChoice_read (by simp [read]) (cachePolicy_read _ _) rfl,?_⟩
  rw [bind_ok]
  refine ⟨_,by simp [read,asObject]; rfl,?_⟩
  rw [bind_ok]
  refine ⟨_,ports_roundTrip _ region.ports,?_⟩
  rw [bind_ok]
  refine ⟨_,by simp [read,asObject]; rfl,?_⟩
  rw [bind_ok]
  refine ⟨_,by simp [read,asObject]; rfl,?_⟩
  rw [bind_ok]
  refine ⟨_,outputs_roundTrip _ region.outputs,?_⟩
  rw [bind_ok]
  refine ⟨region.maxIterations,by simp [read,maxIterations_read],?_⟩
  rw [bind_ok]
  have found : get? (regionMembers region inputs body) "body" = some body := by simp [read]
  refine ⟨region.body,by rw [member?_some found]; exact bodyBack,?_⟩
  rw [bind_ok]
  refine ⟨region.inputs,inputs_roundTrip valid inputsWritten,?_⟩
  rw [bind_ok]
  refine ⟨region.elementPorts,optionalStrList_read (by simp [read]) _,?_⟩
  rw [bind_ok]
  refine ⟨region.statePorts,optionalStrList_read (by simp [read]) _,?_⟩
  rw [bind_ok]
  refine ⟨region.continueSource,by simp [read,continueSource_read],?_⟩
  cases region
  rfl

mutual

theorem graph_back : ∀ (g : Graph) (wire : Json.Value), g.validIds → graphToWire g = .ok wire →
    graphFromWire wire = .ok g
  | ⟨nodes⟩,wire,valid,written => by
    obtain ⟨entries,entriesWritten,same⟩ := bind_ok.mp written
    rw [← Except.ok.inj same,graphFromWire,member?_some (get?_single "nodes" _)]
    exact bind_ok.mpr ⟨nodes,nodes_back nodes entries valid entriesWritten,rfl⟩

theorem nodes_back : ∀ (nodes : List (String × AnyNode)) (entries : Object), nodesValid nodes →
    nodesToWire nodes = .ok entries → nodesFromWire entries = .ok nodes
  | [],entries,_,written => by
    cases written
    rw [nodesFromWire]
  | (nodeId,node) :: rest,entries,valid,written => by
    simp only [nodesValid,Bool.and_eq_true] at valid
    obtain ⟨⟨validId,validNode⟩,validRest⟩ := valid
    obtain ⟨entry,entryWritten,written⟩ := bind_ok.mp written
    obtain ⟨others,othersWritten,same⟩ := bind_ok.mp written
    rw [← Except.ok.inj same,nodesFromWire,validId]
    have head := node_back node nodeId entry validNode entryWritten
    have tail := nodes_back rest others validRest othersWritten
    exact bind_ok.mpr ⟨node,head,bind_ok.mpr ⟨rest,tail,rfl⟩⟩

theorem node_back : ∀ (node : AnyNode) (nodeId : String) (entry : Json.Value), nodeValid node →
    nodeToWire node = .ok entry → nodeFromWire nodeId entry = .ok node
  | .node node,nodeId,entry,valid,written => by
    obtain ⟨members,rfl,plain,back⟩ := graphNode_roundTrip nodeId valid written
    rw [nodeFromWire,member?_none plain]
    exact bind_ok.mpr ⟨node,back,rfl⟩
  | .region region,nodeId,entry,valid,written => by
    obtain ⟨members,rfl,back⟩ := region_back region nodeId entry valid written
    rw [nodeFromWire,member?_some (get?_single "region" _)]
    exact bind_ok.mpr ⟨region,back,rfl⟩

theorem region_back : ∀ (region : RegionNode Graph) (nodeId : String) (entry : Json.Value),
    regionValid region → regionToWire region = .ok entry →
      ∃ members, entry = .obj [("region",.obj members)] ∧
        regionFromWire nodeId members = .ok region
  | ⟨kind,body,ports,inputs,elementPorts,statePorts,outputs,binding,cachePolicy,maxIterations,
      continueSource⟩,nodeId,entry,valid,written => by
    simp only [regionValid,Bool.and_eq_true] at valid
    obtain ⟨inputsWire,inputsWritten,written⟩ := bind_ok.mp written
    obtain ⟨bodyWire,bodyWritten,same⟩ := bind_ok.mp written
    have bodyBack := graph_back body bodyWire valid.2 bodyWritten
    exact ⟨_,(Except.ok.inj same).symm,@region_roundTrip nodeId
      ⟨kind,body,ports,inputs,elementPorts,statePorts,outputs,binding,cachePolicy,maxIterations,
        continueSource⟩ inputsWire bodyWire valid.1 inputsWritten bodyBack⟩

end

theorem graphNode_rewritable {nodeId : String} {entry : Object} {node : GraphNode}
    (read : graphNodeFromWire nodeId entry = .ok node) :
    inputsValid node.inputs ∧ ∃ again, graphNodeToWire node = .ok again := by
  rw [graphNodeFromWire] at read
  split at read
  · obtain ⟨inputsWire,-,read⟩ := bind_ok.mp read
    obtain ⟨membersWire,-,read⟩ := bind_ok.mp read
    obtain ⟨members,-,read⟩ := bind_ok.mp read
    obtain ⟨variantsWire,-,read⟩ := bind_ok.mp read
    obtain ⟨variants,-,read⟩ := bind_ok.mp read
    obtain ⟨inputs,inputsRead,same⟩ := bind_ok.mp read
    obtain ⟨valid,again,written⟩ := inputs_rewritable inputsRead
    cases same
    exact ⟨valid,_,bind_ok.mpr ⟨again,written,rfl⟩⟩
  · cases read

mutual

theorem graph_rewritable (wire : Json.Value) (g : Graph) (read : graphFromWire wire = .ok g) :
    g.validIds ∧ ∃ again, graphToWire g = .ok again := by
  rw [graphFromWire.eq_def] at read
  split at read
  · rename_i document
    split at read
    · cases read
    · rename_i nodesWire smaller _
      have decreases : sizeOf nodesWire < sizeOf (Json.Value.obj document) := by
        simp only [Json.Value.obj.sizeOf_spec] at smaller ⊢
        omega
      obtain ⟨nodes,nodesRead,same⟩ := bind_ok.mp read
      obtain ⟨valid,entries,written⟩ := nodes_rewritable nodesWire nodes nodesRead
      cases same
      exact ⟨valid,_,bind_ok.mpr ⟨entries,written,rfl⟩⟩
    · cases read
  · cases read
termination_by sizeOf wire

theorem nodes_rewritable (entries : Object) (nodes : List (String × AnyNode))
    (read : nodesFromWire entries = .ok nodes) :
    nodesValid nodes ∧ ∃ again, nodesToWire nodes = .ok again := by
  rw [nodesFromWire.eq_def] at read
  split at read
  · cases read
    exact ⟨rfl,[],rfl⟩
  · rename_i nodeId rawEntry rest
    cases validId : validNodeId nodeId with
    | false =>
      rw [validId] at read
      cases read
    | true =>
      rw [validId] at read
      obtain ⟨node,nodeRead,read⟩ := bind_ok.mp read
      obtain ⟨others,othersRead,same⟩ := bind_ok.mp read
      obtain ⟨validNode,entry,entryWritten⟩ := node_rewritable nodeId rawEntry node nodeRead
      obtain ⟨validRest,again,written⟩ := nodes_rewritable rest others othersRead
      cases same
      refine ⟨by simp only [nodesValid,validId,validNode,validRest,Bool.and_self],(nodeId,entry) :: again,?_⟩
      exact bind_ok.mpr ⟨entry,entryWritten,bind_ok.mpr ⟨again,written,rfl⟩⟩
termination_by sizeOf entries

theorem node_rewritable (nodeId : String) (rawEntry : Json.Value) (node : AnyNode)
    (read : nodeFromWire nodeId rawEntry = .ok node) :
    nodeValid node ∧ ∃ again, nodeToWire node = .ok again := by
  rw [nodeFromWire.eq_def] at read
  split at read
  · rename_i entry
    split at read
    · rename_i wire smaller _
      have decreases : sizeOf wire < sizeOf (Json.Value.obj entry) := by
        simp only [Json.Value.obj.sizeOf_spec] at smaller ⊢
        omega
      obtain ⟨region,regionRead,same⟩ := bind_ok.mp read
      obtain ⟨valid,again,written⟩ := region_rewritable nodeId wire region regionRead
      cases same
      exact ⟨valid,again,written⟩
    · cases read
    · obtain ⟨plain,plainRead,same⟩ := bind_ok.mp read
      obtain ⟨valid,again,written⟩ := graphNode_rewritable plainRead
      cases same
      exact ⟨valid,again,written⟩
  · cases read
termination_by sizeOf rawEntry

theorem region_rewritable (nodeId : String) (wire : Object) (region : RegionNode Graph)
    (read : regionFromWire nodeId wire = .ok region) :
    regionValid region ∧ ∃ again, regionToWire region = .ok again := by
  rw [regionFromWire] at read
  obtain ⟨kind,-,read⟩ := bind_ok.mp read
  obtain ⟨binding,-,read⟩ := bind_ok.mp read
  obtain ⟨cachePolicy,-,read⟩ := bind_ok.mp read
  obtain ⟨portsWire,-,read⟩ := bind_ok.mp read
  obtain ⟨ports,-,read⟩ := bind_ok.mp read
  obtain ⟨inputsWire,-,read⟩ := bind_ok.mp read
  obtain ⟨outputsWire,-,read⟩ := bind_ok.mp read
  obtain ⟨outputs,-,read⟩ := bind_ok.mp read
  obtain ⟨maxIterations,-,read⟩ := bind_ok.mp read
  obtain ⟨body,bodyRead,read⟩ := bind_ok.mp read
  obtain ⟨inputs,inputsRead,read⟩ := bind_ok.mp read
  obtain ⟨elementPorts,-,read⟩ := bind_ok.mp read
  obtain ⟨statePorts,-,read⟩ := bind_ok.mp read
  obtain ⟨continueSource,-,same⟩ := bind_ok.mp read
  have bodyAgain : body.validIds ∧ ∃ again, graphToWire body = .ok again := by
    split at bodyRead
    · rename_i bodyWire smaller _
      exact graph_rewritable bodyWire body bodyRead
    · cases bodyRead
  obtain ⟨validBody,bodyWire,bodyWritten⟩ := bodyAgain
  obtain ⟨validInputs,again,inputsWritten⟩ := inputs_rewritable inputsRead
  cases same
  exact ⟨by simp only [regionValid,validInputs,validBody,Bool.and_self],_,
    region_written inputsWritten bodyWritten⟩
termination_by sizeOf wire

end

/-- Round trips of documents and of single inputs in both directions. -/
theorem graph_wire_roundTrip :
    (∀ (g : Graph) (wire : Json.Value), g.validIds → graphToWire g = .ok wire →
      graphFromWire wire = .ok g) ∧
    (∀ (wire : Json.Value) (g : Graph), graphFromWire wire = .ok g →
      ∃ again, graphToWire g = .ok again ∧ graphFromWire again = .ok g) ∧
    (∀ value wire : Json.Value, inputToWire (.literal value) = .ok wire →
      inputFromWire wire = .ok (.literal value) ∧
      (isMarker wire → ∃ n, value = .int n ∧ unsafeInt n = true)) ∧
    (∀ (wire : Json.Value) (input : InputValue), isMarker wire → inputFromWire wire = .ok input →
      (∃ link, input = .link link) ∨ (∃ typed, input = .typed typed) ∨
        ∃ n, input = .literal (.int n) ∧ unsafeInt n = true) := by
  refine ⟨graph_back,?_,?_,?_⟩
  · intro wire g read
    obtain ⟨valid,again,written⟩ := graph_rewritable wire g read
    exact ⟨again,written,graph_back g again valid written⟩
  · intro value wire written
    exact ⟨input_roundTrip (.literal value) rfl wire written,literal_not_marker written⟩
  · intro wire input marker read
    rcases marker_cases marker read with ⟨link,same⟩ | ⟨typed,same,-⟩ | ⟨n,same,large,-⟩
    · exact .inl ⟨link,same⟩
    · exact .inr (.inl ⟨typed,same⟩)
    · exact .inr (.inr ⟨n,same,large⟩)

/-- A large integer beside a region over an empty body. -/
private def nestedGraph : Graph :=
  ⟨[("seed",.node ⟨"core.int",[("value",.literal (.int (2 ^ 60)))],[],[]⟩),
    ("loop",.region ⟨.map,⟨[("inner",.node ⟨"core.echo",[("x",.link ⟨"$region","item"⟩)],[],[]⟩)]⟩,[],
      [("item",.link ⟨"seed","value"⟩)],["item"],[],[],.cross,.reuse,some 4,none⟩)]⟩

theorem graph_wire_roundTrip_nested :
    ∃ wire, graphToWire nestedGraph = .ok wire ∧ graphFromWire wire = .ok nestedGraph :=
  ⟨_,rfl,graph_wire_roundTrip.1 nestedGraph _ rfl rfl⟩

end Dinkster
