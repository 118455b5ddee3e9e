import Dinkster.Schema.TypeExprWire

/-! Runtime type ids: what an expression without open parts is called, and how its name is read.
The names of atoms carry no bracket and no comma, so the scan for the positions of a tuple passes
over every name inside it. -/
namespace Dinkster

def listTypeId (element : String) : String := "list<" ++ element ++ ">"

def assetTypeId (element : String) : String := "asset<" ++ element ++ ">"

def streamTypeId (element : String) : String := "stream<" ++ element ++ ">"

def tupleTypeId (elements : List String) : String := "tuple<" ++ ",".intercalate elements ++ ">"

section Scan

variable (c : Char) (cs : List Char) (depth : Nat) (position : List Char) (before : List String)

theorem tuplePositions_char (left : c ≠ '<') (right : c ≠ '>') (inner : ¬(c = ',' ∧ depth = 0)) :
    tuplePositions (c :: cs) depth position before =
      tuplePositions cs depth (c :: position) before := by
  rw [tuplePositions.eq_def]
  simp only [left,right,inner,if_false]

theorem tuplePositions_left : tuplePositions ('<' :: cs) depth position before =
    tuplePositions cs (depth + 1) ('<' :: position) before := by
  rw [tuplePositions.eq_def]
  rfl

theorem tuplePositions_right : tuplePositions ('>' :: cs) (depth + 1) position before =
    tuplePositions cs depth ('>' :: position) before := by
  rw [tuplePositions.eq_def]
  rfl

theorem tuplePositions_top : tuplePositions (',' :: cs) 0 position before =
    tuplePositions cs 0 [] (String.ofList position.reverse :: before) := by
  rw [tuplePositions.eq_def]
  rfl

theorem tuplePositions_end :
    tuplePositions [] 0 position before = some (String.ofList position.reverse :: before).reverse :=
  rfl

end Scan

/-- The scan at a depth of at least `floor` takes the characters into the position it reads. -/
def Passes (floor : Nat) (cs : List Char) : Prop :=
  ∀ depth position before rest, floor ≤ depth →
    tuplePositions (cs ++ rest) depth position before =
      tuplePositions rest depth (cs.reverse ++ position) before

theorem Passes.append {floor : Nat} {cs ds : List Char} (first : Passes floor cs)
    (second : Passes floor ds) : Passes floor (cs ++ ds) := by
  intro depth position before rest deep
  rw [List.append_assoc,first _ _ _ _ deep,second _ _ _ _ deep,List.reverse_append,
    List.append_assoc]

theorem Passes.mono {cs : List Char} (passes : Passes 0 cs) (floor : Nat) : Passes floor cs :=
  fun depth position before rest _ => passes depth position before rest (Nat.zero_le _)

theorem passes_plain {cs : List Char} (plain : ∀ c ∈ cs, c ≠ '<' ∧ c ≠ '>' ∧ c ≠ ',') :
    Passes 0 cs := by
  intro depth position before rest _
  induction cs generalizing position with
  | nil => rfl
  | cons c cs ih =>
    obtain ⟨left,right,comma⟩ := plain c List.mem_cons_self
    rw [List.cons_append,tuplePositions_char _ _ _ _ _ left right fun both => comma both.1,
      ih (fun d inside => plain d (List.mem_cons_of_mem _ inside))]
    simp

theorem passes_comma : Passes 1 [','] := by
  intro depth position before rest deep
  have inside : ¬(',' = ',' ∧ depth = 0) := fun both => by omega
  rw [List.cons_append,tuplePositions_char _ _ _ _ _ (by decide) (by decide) inside]
  rfl

theorem passes_brackets {cs : List Char} (passes : Passes 1 cs) : Passes 0 ('<' :: cs ++ ['>']) := by
  intro depth position before rest _
  rw [List.cons_append,List.cons_append,tuplePositions_left,List.append_assoc,
    passes _ _ _ _ (Nat.le_add_left 1 depth),List.singleton_append,tuplePositions_right]
  simp

theorem passes_intercalate {parts : List (List Char)} (passes : ∀ p ∈ parts, Passes 0 p) :
    Passes 1 ([','].intercalate parts) := by
  induction parts with
  | nil => exact fun _ _ _ _ _ => rfl
  | cons p parts ih =>
    have here := (passes p List.mem_cons_self).mono 1
    cases parts with
    | nil => simpa using here
    | cons q parts =>
      rw [List.intercalate_cons_cons]
      exact (here.append passes_comma).append
        (ih fun r inside => passes r (List.mem_cons_of_mem _ inside))

theorem tuplePositions_intercalate {p : List Char} {parts : List (List Char)}
    (passes : ∀ q ∈ p :: parts, Passes 0 q) (before : List String) :
    tuplePositions ([','].intercalate (p :: parts)) 0 [] before =
      some (before.reverse ++ (p :: parts).map String.ofList) := by
  induction parts generalizing p before with
  | nil =>
    have here := passes p List.mem_cons_self 0 [] before [] le_rfl
    rw [List.append_nil,List.append_nil] at here
    rw [List.intercalate_singleton,here,tuplePositions_end]
    simp
  | cons q parts ih =>
    rw [List.intercalate_cons_cons,List.append_assoc,
      passes p List.mem_cons_self 0 [] before _ le_rfl,List.singleton_append,tuplePositions_top,
      ih (fun r inside => passes r (List.mem_cons_of_mem _ inside))]
    simp

private theorem intercalate_last (before : List (List Char)) (p q : List Char) :
    [','].intercalate (before ++ [p,q]) = [','].intercalate (before ++ [p ++ ',' :: q]) := by
  induction before with
  | nil => simp [List.intercalate_cons_cons]
  | cons b before ih =>
    cases before with
    | nil => simp [List.intercalate_cons_cons]
    | cons c before =>
      rw [List.cons_append,List.cons_append,List.intercalate_cons_cons,← List.cons_append,ih,
        List.cons_append,List.cons_append,List.cons_append,List.intercalate_cons_cons]

theorem tuplePositions_some {cs : List Char} {depth : Nat} {position : List Char}
    {before found : List String} (scanned : tuplePositions cs depth position before = some found) :
    [','].intercalate (found.map String.toList) =
      [','].intercalate (before.reverse.map String.toList ++ [position.reverse ++ cs]) := by
  induction cs generalizing depth position before with
  | nil =>
    cases depth with
    | zero =>
      cases scanned
      simp
    | succ depth => cases scanned
  | cons c cs ih =>
    rw [tuplePositions.eq_def] at scanned
    simp only at scanned
    split at scanned
    · rw [ih scanned]
      simp
    · split at scanned
      · cases depth with
        | zero => cases scanned
        | succ depth =>
          rw [ih scanned]
          simp
      · split at scanned
        · rename_i _ _ comma
          rw [ih scanned,comma.1]
          have join := intercalate_last (before.reverse.map String.toList) position.reverse cs
          simpa using join
        · rw [ih scanned]
          simp

theorem bracketed_some {left typeId element : String} :
    bracketed left.toList typeId = some element ↔ typeId = left ++ element ++ ">" ∧ element ≠ "" := by
  rw [bracketed]
  constructor
  · intro found
    split at found
    · rename_i shape
      obtain ⟨starts,ends,long⟩ := shape
      cases found
      have body : typeId.toList = left.toList ++ typeId.toList.drop left.toList.length := by
        conv_lhs => rw [← List.take_append_drop left.toList.length typeId.toList,starts]
      have filled : typeId.toList.drop left.toList.length ≠ [] := by
        rw [← List.length_pos_iff,List.length_drop]
        omega
      have last : (typeId.toList.drop left.toList.length).getLast? = some '>' := by
        rw [body,List.getLast?_append] at ends
        cases shown : (typeId.toList.drop left.toList.length).getLast? with
        | none => exact absurd (List.getLast?_eq_none_iff.mp shown) filled
        | some c => rw [shown] at ends; exact ends
      have split : typeId.toList.drop left.toList.length =
          (typeId.toList.drop left.toList.length).dropLast ++ ['>'] := by
        obtain ⟨front,value⟩ := List.getLast?_eq_some_iff.mp last
        rw [value,List.dropLast_concat]
      refine ⟨?_,?_⟩
      · apply String.toList_inj.mp
        rw [String.toList_append,String.toList_append,String.toList_ofList,List.append_assoc]
        exact body.trans (congrArg (left.toList ++ ·) split)
      · intro nothing
        have short := congrArg (fun s => s.toList.length) nothing
        simp only [String.toList_ofList,List.length_dropLast,List.length_drop] at short
        have zero : "".toList.length = 0 := rfl
        omega
    · cases found
  · rintro ⟨rfl,some⟩
    have long : element.toList.length ≠ 0 := fun zero =>
      some (String.toList_eq_nil_iff.mp (List.length_eq_zero_iff.mp zero))
    have chars : (left ++ element ++ ">").toList = left.toList ++ (element.toList ++ ['>']) := by
      rw [String.toList_append,String.toList_append,List.append_assoc]
      rfl
    rw [chars,if_pos]
    · rw [List.drop_left,List.dropLast_concat,String.ofList_toList]
    · refine ⟨List.take_left,?_,?_⟩
      · simp
      · simp only [List.length_append,List.length_singleton]
        omega

theorem parseListTypeId_some {typeId element : String} :
    parseListTypeId typeId = some element ↔ typeId = listTypeId element ∧ element ≠ "" :=
  bracketed_some

theorem parseAssetTypeId_some {typeId element : String} :
    parseAssetTypeId typeId = some element ↔ typeId = assetTypeId element ∧ element ≠ "" :=
  bracketed_some

theorem parseStreamTypeId_some {typeId element : String} :
    parseStreamTypeId typeId = some element ↔ typeId = streamTypeId element ∧ element ≠ "" :=
  bracketed_some

theorem toList_tupleTypeId (elements : List String) :
    (tupleTypeId elements).toList =
      "tuple<".toList ++ ([','].intercalate (elements.map String.toList) ++ ['>']) := by
  rw [tupleTypeId,String.toList_append,String.toList_append,String.toList_intercalate,
    List.append_assoc]
  rfl

theorem parseTupleTypeId_some {typeId : String} {elements : List String}
    (found : parseTupleTypeId typeId = some elements) :
    typeId = tupleTypeId elements ∧ "" ∉ elements := by
  rw [parseTupleTypeId] at found
  simp only at found
  split at found
  · rename_i shape
    obtain ⟨starts,ends⟩ := shape
    have body : typeId.toList = "tuple<".toList ++ typeId.toList.drop "tuple<".toList.length := by
      conv_lhs => rw [← List.take_append_drop "tuple<".toList.length typeId.toList,starts]
    have last : (typeId.toList.drop "tuple<".toList.length).getLast? = some '>' := by
      rw [body,List.getLast?_append] at ends
      cases shown : (typeId.toList.drop "tuple<".toList.length).getLast? with
      | none => rw [shown] at ends; exact absurd ends (by decide)
      | some c => rw [shown] at ends; exact ends
    obtain ⟨inner,value⟩ := List.getLast?_eq_some_iff.mp last
    rw [value,List.dropLast_concat] at found
    have spelled : ∀ elements : List String,
        [','].intercalate (elements.map String.toList) = inner → typeId = tupleTypeId elements := by
      intro elements same
      apply String.toList_inj.mp
      rw [toList_tupleTypeId,same,← value]
      exact body
    split at found
    · rename_i nothing
      cases found
      exact ⟨spelled [] nothing.symm,List.not_mem_nil⟩
    · obtain ⟨positions,scanned,kept⟩ := Option.bind_eq_some_iff.mp found
      split at kept
      · rename_i filled
        cases kept
        refine ⟨spelled _ (by simpa using tuplePositions_some scanned),fun empty => ?_⟩
        have here := List.all_eq_true.mp filled "" empty
        exact absurd (of_decide_eq_true here) (fun differ => differ rfl)
      · cases kept
  · cases found

theorem parseTupleTypeId_tupleTypeId {elements : List String}
    (passes : ∀ e ∈ elements, Passes 0 e.toList) (filled : "" ∉ elements) :
    parseTupleTypeId (tupleTypeId elements) = some elements := by
  rw [parseTupleTypeId,toList_tupleTypeId]
  simp only [List.take_left,List.drop_left,List.dropLast_concat]
  rw [if_pos ⟨trivial,by rw [← List.append_assoc]; exact List.getLast?_concat⟩]
  cases elements with
  | nil => rfl
  | cons e elements =>
    have closed : ∀ q ∈ e.toList :: elements.map String.toList, Passes 0 q := by
      intro q inside
      obtain ⟨s,here,rfl⟩ := List.mem_map.mp (List.map_cons ▸ inside)
      exact passes s here
    have read := tuplePositions_intercalate closed []
    have back : (e.toList :: elements.map String.toList).map String.ofList = e :: elements := by
      simp
    have some : [','].intercalate ((e :: elements).map String.toList) ≠ [] := by
      have first : e.toList ≠ [] := fun nothing =>
        filled (String.toList_eq_nil_iff.mp nothing ▸ List.mem_cons_self)
      cases elements with
      | nil => simpa using first
      | cons e' elements =>
        rw [List.map_cons,List.map_cons,List.intercalate_cons_cons]
        simp
    rw [if_neg some,List.map_cons,read,back]
    have all : (e :: elements).all (· ≠ "") = true := List.all_eq_true.mpr fun s inside =>
      decide_eq_true (ne_of_mem_of_not_mem inside filled)
    rw [Option.bind_some,List.reverse_nil,List.nil_append,if_pos all]

namespace TypeExpr

def concrete (typeId : String) : TypeExpr := ⟨.concrete,[typeId],"",none,[],"",none⟩

def wildcard : TypeExpr := ⟨.wildcard,[],"",none,[],"",none⟩

def «variable» (templateId : String) (allowed : List String) : TypeExpr :=
  ⟨.variable,allowed,templateId,none,[],"",none⟩

def listOf (element : TypeExpr) : TypeExpr := ⟨.list,[],"",some element,[],"",none⟩

def assetOf (element : TypeExpr) : TypeExpr := ⟨.asset,[],"",some element,[],"",none⟩

def streamOf (element : TypeExpr) : TypeExpr := ⟨.stream,[],"",some element,[],"",none⟩

def tupleOf (elements : List TypeExpr) : TypeExpr := ⟨.tuple,[],"",none,elements,"",none⟩

mutual

def runtimeTypeId : TypeExpr → Option String
  | ⟨kind,types,_,element,elements,_,_⟩ =>
    match kind with
    | .concrete => types.head?
    | .tuple => (runtimeTypeIds elements).map tupleTypeId
    | .stream => (elementTypeId element).map streamTypeId
    | .list =>
      if element.map (·.kind) = some .wildcard then some (listTypeId "*")
      else (elementTypeId element).map listTypeId
    | .asset => (elementTypeId element).map assetTypeId
    | _ => none

def elementTypeId : Option TypeExpr → Option String
  | none => none
  | some element => element.runtimeTypeId

def runtimeTypeIds : List TypeExpr → Option (List String)
  | [] => some []
  | expr :: rest => do
    let typeId ← expr.runtimeTypeId
    let typeIds ← runtimeTypeIds rest
    return typeId :: typeIds

end

mutual

def acceptsConcrete : TypeExpr → String → Bool
  | ⟨kind,types,_,element,elements,_,_⟩,typeId =>
    match kind with
    | .wildcard => true
    | .variable => types.isEmpty || decide (typeId ∈ types)
    | .tuple =>
      match parseTupleTypeId typeId with
      | none => false
      | some positions => acceptsAll elements positions
    | .stream => elementAccepts element (parseStreamTypeId typeId)
    | .list => elementAccepts element (parseListTypeId typeId)
    | .asset => elementAccepts element (parseAssetTypeId typeId)
    | _ => decide (typeId ∈ types)

def elementAccepts : Option TypeExpr → Option String → Bool
  | some element,some inner => element.acceptsConcrete inner
  | _,_ => false

def acceptsAll : List TypeExpr → List String → Bool
  | [],[] => true
  | expr :: rest,position :: positions => expr.acceptsConcrete position && acceptsAll rest positions
  | _,_ => false

end

end TypeExpr

private theorem intercalate_length {parts : List (List Char)} {p : List Char} (inside : p ∈ parts) :
    p.length ≤ ([','].intercalate parts).length := by
  induction parts with
  | nil => cases inside
  | cons q parts ih =>
    cases parts with
    | nil => rw [List.mem_singleton.mp inside,List.intercalate_singleton]
    | cons r parts =>
      rw [List.intercalate_cons_cons]
      simp only [List.length_append]
      obtain rfl | rest := List.mem_cons.mp inside
      · omega
      · have shorter := ih rest
        omega

theorem parseTupleTypeId_shorter {typeId : String} {elements : List String}
    (found : parseTupleTypeId typeId = some elements) {e : String} (inside : e ∈ elements) :
    e.toList.length < typeId.toList.length := by
  rw [(parseTupleTypeId_some found).1,toList_tupleTypeId]
  have shorter := intercalate_length (List.mem_map_of_mem (f := String.toList) inside)
  simp only [List.length_append,List.length_singleton]
  omega

private theorem layer_shorter (left element : String) :
    element.toList.length < (left ++ element ++ ">").toList.length := by
  simp only [String.toList_append,List.length_append]
  have one : ">".toList.length = 1 := rfl
  omega

/-- `_type_expr_from_runtime_id` -/
def typeExprFromRuntimeId (typeId : String) : TypeExpr :=
  match _tuple : parseTupleTypeId typeId with
  | some positions => .tupleOf (positions.attach.map fun item => typeExprFromRuntimeId item.1)
  | none =>
    match _stream : parseStreamTypeId typeId with
    | some inner => .streamOf (typeExprFromRuntimeId inner)
    | none =>
      match _list : parseListTypeId typeId with
      | some inner => .listOf (if inner = "*" then .wildcard else typeExprFromRuntimeId inner)
      | none =>
        match _asset : parseAssetTypeId typeId with
        | some inner => .assetOf (typeExprFromRuntimeId inner)
        | none => .concrete typeId
termination_by typeId.toList.length
decreasing_by
  · exact parseTupleTypeId_shorter _tuple item.2
  · rw [(parseStreamTypeId_some.mp _stream).1]
    exact layer_shorter _ _
  · rw [(parseListTypeId_some.mp _list).1]
    exact layer_shorter _ _
  · rw [(parseAssetTypeId_some.mp _asset).1]
    exact layer_shorter _ _

section Reading

variable {typeId : String}

theorem typeExprFromRuntimeId_eq : typeExprFromRuntimeId typeId =
    match parseTupleTypeId typeId with
    | some positions => .tupleOf (positions.map typeExprFromRuntimeId)
    | none => match parseStreamTypeId typeId with
      | some inner => .streamOf (typeExprFromRuntimeId inner)
      | none => match parseListTypeId typeId with
        | some inner => .listOf (if inner = "*" then .wildcard else typeExprFromRuntimeId inner)
        | none => match parseAssetTypeId typeId with
          | some inner => .assetOf (typeExprFromRuntimeId inner)
          | none => .concrete typeId := by
  rw [typeExprFromRuntimeId]
  split
  · rename_i found
    rw [found,List.attach_map_val]
  · rename_i tuple
    rw [tuple]
    dsimp only
    split
    · rename_i found
      rw [found]
    · rename_i stream
      rw [stream]
      dsimp only
      split
      · rename_i found
        rw [found]
      · rename_i list
        rw [list]
        dsimp only
        split
        · rename_i found
          rw [found]
        · rename_i asset
          rw [asset]

theorem typeExprFromRuntimeId_tuple {positions : List String}
    (found : parseTupleTypeId typeId = some positions) :
    typeExprFromRuntimeId typeId = .tupleOf (positions.map typeExprFromRuntimeId) := by
  rw [typeExprFromRuntimeId_eq,found]

theorem typeExprFromRuntimeId_stream {inner : String}
    (tuple : parseTupleTypeId typeId = none) (found : parseStreamTypeId typeId = some inner) :
    typeExprFromRuntimeId typeId = .streamOf (typeExprFromRuntimeId inner) := by
  rw [typeExprFromRuntimeId_eq,tuple,found]

theorem typeExprFromRuntimeId_list {inner : String} (tuple : parseTupleTypeId typeId = none)
    (stream : parseStreamTypeId typeId = none) (found : parseListTypeId typeId = some inner) :
    typeExprFromRuntimeId typeId =
      .listOf (if inner = "*" then .wildcard else typeExprFromRuntimeId inner) := by
  rw [typeExprFromRuntimeId_eq,tuple,stream,found]

theorem typeExprFromRuntimeId_asset {inner : String} (tuple : parseTupleTypeId typeId = none)
    (stream : parseStreamTypeId typeId = none) (list : parseListTypeId typeId = none)
    (found : parseAssetTypeId typeId = some inner) :
    typeExprFromRuntimeId typeId = .assetOf (typeExprFromRuntimeId inner) := by
  rw [typeExprFromRuntimeId_eq,tuple,stream,list,found]

theorem typeExprFromRuntimeId_concrete (tuple : parseTupleTypeId typeId = none)
    (stream : parseStreamTypeId typeId = none) (list : parseListTypeId typeId = none)
    (asset : parseAssetTypeId typeId = none) :
    typeExprFromRuntimeId typeId = .concrete typeId := by
  rw [typeExprFromRuntimeId_eq,tuple,stream,list,asset]

end Reading

namespace TypeExpr

theorem acceptsConcrete_streamOf (e : TypeExpr) (typeId : String) :
    (streamOf e).acceptsConcrete typeId = elementAccepts (some e) (parseStreamTypeId typeId) := rfl

theorem acceptsConcrete_listOf (e : TypeExpr) (typeId : String) :
    (listOf e).acceptsConcrete typeId = elementAccepts (some e) (parseListTypeId typeId) := rfl

theorem acceptsConcrete_assetOf (e : TypeExpr) (typeId : String) :
    (assetOf e).acceptsConcrete typeId = elementAccepts (some e) (parseAssetTypeId typeId) := rfl

theorem acceptsConcrete_tupleOf {es : List TypeExpr} {typeId : String} {positions : List String}
    (found : parseTupleTypeId typeId = some positions) :
    (tupleOf es).acceptsConcrete typeId = acceptsAll es positions := by
  rw [tupleOf,acceptsConcrete]
  simp only [found]

theorem runtimeTypeIds_map {parts : List String} {read : String → TypeExpr}
    (named : ∀ p ∈ parts, (read p).runtimeTypeId = some p) :
    runtimeTypeIds (parts.map read) = some parts := by
  induction parts with
  | nil => rfl
  | cons p parts ih =>
    rw [List.map_cons,runtimeTypeIds,named p List.mem_cons_self,
      ih fun q inside => named q (List.mem_cons_of_mem _ inside)]
    rfl

theorem typeExprFromRuntimeId_kind (typeId : String) :
    (typeExprFromRuntimeId typeId).kind ≠ .wildcard := by
  rw [typeExprFromRuntimeId_eq]
  split
  · nofun
  · split
    · nofun
    · split
      · nofun
      · split <;> nofun

theorem runtimeTypeId_typeExprFromRuntimeId (typeId : String) :
    (typeExprFromRuntimeId typeId).runtimeTypeId = some typeId := by
  induction typeId using typeExprFromRuntimeId.induct with
  | case1 typeId positions found ih =>
    rw [typeExprFromRuntimeId_tuple found,tupleOf,runtimeTypeId]
    rw [runtimeTypeIds_map fun p inside => ih ⟨p,inside⟩,Option.map_some,
      ← (parseTupleTypeId_some found).1]
  | case2 typeId tuple inner found ih =>
    rw [typeExprFromRuntimeId_stream tuple found,streamOf,runtimeTypeId]
    simp only [elementTypeId]
    rw [ih,Option.map_some,← (parseStreamTypeId_some.mp found).1]
  | case3 typeId tuple stream inner found ih =>
    rw [typeExprFromRuntimeId_list tuple stream found,listOf,runtimeTypeId]
    simp only [elementTypeId,Option.map_some,Option.some.injEq]
    rw [(parseListTypeId_some.mp found).1]
    split
    · rename_i any
      subst any
      rfl
    · rename_i named
      rw [if_neg (typeExprFromRuntimeId_kind inner),ih,Option.map_some]
  | case4 typeId tuple stream list inner found ih =>
    rw [typeExprFromRuntimeId_asset tuple stream list found,assetOf,runtimeTypeId]
    simp only [elementTypeId]
    rw [ih,Option.map_some,← (parseAssetTypeId_some.mp found).1]
  | case5 typeId tuple stream list asset =>
    rw [typeExprFromRuntimeId_concrete tuple stream list asset]
    rfl

theorem typeExprFromRuntimeId_wellFormed (typeId : String) :
    (typeExprFromRuntimeId typeId).wellFormed = true := by
  induction typeId using typeExprFromRuntimeId.induct with
  | case1 typeId positions found ih =>
    rw [typeExprFromRuntimeId_tuple found,tupleOf,wellFormed]
    have all : ∀ ps : List String, (∀ p ∈ ps, (typeExprFromRuntimeId p).wellFormed = true) →
        elementsWellFormed (ps.map typeExprFromRuntimeId) = true := by
      intro ps each
      induction ps with
      | nil => rfl
      | cons p ps rest =>
        rw [List.map_cons,elementsWellFormed,each p List.mem_cons_self,
          rest fun q inside => each q (List.mem_cons_of_mem _ inside)]
        rfl
    rw [all positions fun p inside => ih ⟨p,inside⟩,elementWellFormed]
    rfl
  | case2 typeId tuple inner found ih =>
    rw [typeExprFromRuntimeId_stream tuple found,streamOf,wellFormed,elementWellFormed,ih]
    rfl
  | case3 typeId tuple stream inner found ih =>
    rw [typeExprFromRuntimeId_list tuple stream found,listOf,wellFormed,elementWellFormed]
    split
    · rfl
    · rw [ih]
      rfl
  | case4 typeId tuple stream list inner found ih =>
    rw [typeExprFromRuntimeId_asset tuple stream list found,assetOf,wellFormed,elementWellFormed,ih]
    rfl
  | case5 typeId tuple stream list asset =>
    rw [typeExprFromRuntimeId_concrete tuple stream list asset,concrete,wellFormed]
    simp [passes,checks,concreteChecks,tuple,stream,list,asset,elementWellFormed,
      elementsWellFormed,hasElement,hasElements]

/-- Every text is the name of a well formed type expression, the one it is read as. -/
theorem runtimeTypeId_roundTrip (typeId : String) :
    (typeExprFromRuntimeId typeId).wellFormed = true ∧
      (typeExprFromRuntimeId typeId).runtimeTypeId = some typeId :=
  ⟨typeExprFromRuntimeId_wellFormed typeId,runtimeTypeId_typeExprFromRuntimeId typeId⟩

/-- What `runtime_type_atoms` takes for an atom, and not the sign for any element of a list. -/
structure WellFormedAtom (atom : String) : Prop where
  some : atom ≠ ""
  plain : ∀ c ∈ atom.toList, c ≠ '<' ∧ c ≠ '>' ∧ c ≠ ','
  named : atom ≠ "*"

inductive FullyConcrete : TypeExpr → Prop
  | concrete {atom : String} (formed : WellFormedAtom atom) : FullyConcrete (.concrete atom)
  | tuple {elements : List TypeExpr} (all : ∀ e ∈ elements, FullyConcrete e) :
    FullyConcrete (.tupleOf elements)
  | stream {element : TypeExpr} (inner : FullyConcrete element) : FullyConcrete (.streamOf element)
  | list {element : TypeExpr} (inner : FullyConcrete element) : FullyConcrete (.listOf element)
  | listOfAny : FullyConcrete (.listOf .wildcard)
  | asset {element : TypeExpr} (inner : FullyConcrete element) : FullyConcrete (.assetOf element)

/-- `typeId` is the name of `e`, and the scan for positions passes over it. -/
structure Named (e : TypeExpr) (typeId : String) : Prop where
  name : e.runtimeTypeId = some typeId
  read : typeExprFromRuntimeId typeId = e
  accepts : e.acceptsConcrete typeId = true
  passes : Passes 0 typeId.toList
  filled : typeId ≠ ""
  closed : typeId ≠ "*"
  kind : e.kind ≠ .wildcard

theorem passes_layer (left : String) {inner : String}
    (plain : ∀ c ∈ left.toList, c ≠ '<' ∧ c ≠ '>' ∧ c ≠ ',')
    (passes : Passes 1 inner.toList) : Passes 0 (left ++ "<" ++ inner ++ ">").toList := by
  have spelled : (left ++ "<" ++ inner ++ ">").toList =
      left.toList ++ ('<' :: inner.toList ++ ['>']) := by
    simp only [String.toList_append,List.append_assoc]
    rfl
  rw [spelled]
  exact (passes_plain plain).append (passes_brackets passes)

theorem head_tuple (elements : List String) : (tupleTypeId elements).toList.head? = some 't' := by
  rw [toList_tupleTypeId]
  rfl

private theorem head_layer (left inner : String) (c : Char) (starts : left.toList.head? = some c) :
    (left ++ inner ++ ">").toList.head? = some c := by
  rw [String.toList_append,String.toList_append,List.append_assoc,List.head?_append,starts]
  rfl

theorem head_stream (inner : String) : (streamTypeId inner).toList.head? = some 's' :=
  head_layer "stream<" inner 's' rfl

theorem head_list (inner : String) : (listTypeId inner).toList.head? = some 'l' :=
  head_layer "list<" inner 'l' rfl

theorem head_asset (inner : String) : (assetTypeId inner).toList.head? = some 'a' :=
  head_layer "asset<" inner 'a' rfl

section None

variable {typeId : String}

theorem parseTupleTypeId_none (other : ∀ es, typeId ≠ tupleTypeId es) :
    parseTupleTypeId typeId = none :=
  Option.eq_none_iff_forall_ne_some.mpr fun es found => other es (parseTupleTypeId_some found).1

theorem parseStreamTypeId_none (other : ∀ inner, typeId ≠ streamTypeId inner) :
    parseStreamTypeId typeId = none :=
  Option.eq_none_iff_forall_ne_some.mpr fun inner found =>
    other inner (parseStreamTypeId_some.mp found).1

theorem parseListTypeId_none (other : ∀ inner, typeId ≠ listTypeId inner) :
    parseListTypeId typeId = none :=
  Option.eq_none_iff_forall_ne_some.mpr fun inner found =>
    other inner (parseListTypeId_some.mp found).1

theorem parseAssetTypeId_none (other : ∀ inner, typeId ≠ assetTypeId inner) :
    parseAssetTypeId typeId = none :=
  Option.eq_none_iff_forall_ne_some.mpr fun inner found =>
    other inner (parseAssetTypeId_some.mp found).1

end None

private theorem differ {s t : String} {c d : Char} (first : s.toList.head? = some c)
    (second : t.toList.head? = some d) (different : c ≠ d) : s ≠ t := fun same =>
  different (Option.some.inj (first.symm.trans ((congrArg (·.toList.head?) same).trans second)))

private theorem layer_filled (left inner : String) : left ++ inner ++ ">" ≠ "" := fun nothing => by
  have chars := congrArg String.toList nothing
  simp only [String.toList_append] at chars
  exact absurd chars (by simp)

theorem Named.stream {e : TypeExpr} {inner : String} (named : Named e inner) :
    Named (.streamOf e) (streamTypeId inner) := by
  have tuple : parseTupleTypeId (streamTypeId inner) = none :=
    parseTupleTypeId_none fun es => differ (head_stream inner) (head_tuple es) (by decide)
  have found : parseStreamTypeId (streamTypeId inner) = some inner :=
    parseStreamTypeId_some.mpr ⟨rfl,named.filled⟩
  refine ⟨?_,?_,?_,?_,layer_filled _ _,?_,nofun⟩
  · rw [streamOf,runtimeTypeId]
    simp only [elementTypeId]
    rw [named.name,Option.map_some]
  · rw [typeExprFromRuntimeId_stream tuple found,named.read]
  · rw [acceptsConcrete_streamOf,found]
    exact named.accepts
  · exact passes_layer "stream" (by simp) (named.passes.mono 1)
  · exact differ (head_stream inner) (d := '*') rfl (by decide)

theorem Named.asset {e : TypeExpr} {inner : String} (named : Named e inner) :
    Named (.assetOf e) (assetTypeId inner) := by
  have tuple : parseTupleTypeId (assetTypeId inner) = none :=
    parseTupleTypeId_none fun es => differ (head_asset inner) (head_tuple es) (by decide)
  have stream : parseStreamTypeId (assetTypeId inner) = none :=
    parseStreamTypeId_none fun es => differ (head_asset inner) (head_stream es) (by decide)
  have list : parseListTypeId (assetTypeId inner) = none :=
    parseListTypeId_none fun es => differ (head_asset inner) (head_list es) (by decide)
  have found : parseAssetTypeId (assetTypeId inner) = some inner :=
    parseAssetTypeId_some.mpr ⟨rfl,named.filled⟩
  refine ⟨?_,?_,?_,?_,layer_filled _ _,?_,nofun⟩
  · rw [assetOf,runtimeTypeId]
    simp only [elementTypeId]
    rw [named.name,Option.map_some]
  · rw [typeExprFromRuntimeId_asset tuple stream list found,named.read]
  · rw [acceptsConcrete_assetOf,found]
    exact named.accepts
  · exact passes_layer "asset" (by simp) (named.passes.mono 1)
  · exact differ (head_asset inner) (d := '*') rfl (by decide)

theorem read_list {inner : String} (filled : inner ≠ "") :
    typeExprFromRuntimeId (listTypeId inner) =
      .listOf (if inner = "*" then .wildcard else typeExprFromRuntimeId inner) :=
  typeExprFromRuntimeId_list
    (parseTupleTypeId_none fun es => differ (head_list inner) (head_tuple es) (by decide))
    (parseStreamTypeId_none fun es => differ (head_list inner) (head_stream es) (by decide))
    (parseListTypeId_some.mpr ⟨rfl,filled⟩)

theorem Named.list {e : TypeExpr} {inner : String} (named : Named e inner) :
    Named (.listOf e) (listTypeId inner) := by
  have found : parseListTypeId (listTypeId inner) = some inner :=
    parseListTypeId_some.mpr ⟨rfl,named.filled⟩
  refine ⟨?_,?_,?_,?_,layer_filled _ _,?_,nofun⟩
  · rw [listOf,runtimeTypeId]
    simp only [elementTypeId,Option.map_some,Option.some.injEq]
    rw [if_neg named.kind,named.name,Option.map_some]
  · rw [read_list named.filled,if_neg named.closed,named.read]
  · rw [acceptsConcrete_listOf,found]
    exact named.accepts
  · exact passes_layer "list" (by simp) (named.passes.mono 1)
  · exact differ (head_list inner) (d := '*') rfl (by decide)

theorem named_listOfAny : Named (.listOf .wildcard) (listTypeId "*") := by
  have found : parseListTypeId (listTypeId "*") = some "*" :=
    parseListTypeId_some.mpr ⟨rfl,by decide⟩
  refine ⟨rfl,read_list (by decide),?_,?_,by decide,by decide,nofun⟩
  · rw [acceptsConcrete_listOf,found]
    rfl
  · exact passes_layer "list" (by simp) ((passes_plain (by simp)).mono 1)

theorem named_concrete {atom : String} (formed : WellFormedAtom atom) :
    Named (.concrete atom) atom := by
  have outside : ∀ left inner : String, atom ≠ left ++ "<" ++ inner ++ ">" := by
    rintro left inner rfl
    have inside : '<' ∈ (left ++ "<" ++ inner ++ ">").toList := by
      simp [String.toList_append]
    exact (formed.plain '<' inside).1 rfl
  refine ⟨rfl,?_,by simp [concrete,acceptsConcrete],passes_plain formed.plain,formed.some,
    formed.named,nofun⟩
  exact typeExprFromRuntimeId_concrete
    (parseTupleTypeId_none fun es => outside "tuple" _)
    (parseStreamTypeId_none fun inner => outside "stream" inner)
    (parseListTypeId_none fun inner => outside "list" inner)
    (parseAssetTypeId_none fun inner => outside "asset" inner)

theorem named_elements {elements : List TypeExpr} (all : ∀ e ∈ elements, ∃ typeId, Named e typeId) :
    ∃ typeIds, runtimeTypeIds elements = some typeIds ∧
      typeIds.map typeExprFromRuntimeId = elements ∧ acceptsAll elements typeIds = true ∧
      (∀ t ∈ typeIds, Passes 0 t.toList) ∧ "" ∉ typeIds := by
  induction elements with
  | nil => exact ⟨[],rfl,rfl,rfl,nofun,List.not_mem_nil⟩
  | cons e elements ih =>
    obtain ⟨typeId,named⟩ := all e List.mem_cons_self
    obtain ⟨typeIds,names,read,accepts,passes,filled⟩ :=
      ih fun e' inside => all e' (List.mem_cons_of_mem _ inside)
    refine ⟨typeId :: typeIds,?_,?_,?_,List.forall_mem_cons.mpr ⟨named.passes,passes⟩,?_⟩
    · rw [runtimeTypeIds,named.name,names]
      rfl
    · rw [List.map_cons,named.read,read]
    · rw [acceptsAll,named.accepts,accepts]
      rfl
    · exact fun empty => (List.mem_cons.mp empty).elim (fun here => named.filled here.symm) filled

theorem FullyConcrete.named {e : TypeExpr} (concrete : FullyConcrete e) :
    ∃ typeId, Named e typeId := by
  induction concrete with
  | concrete formed => exact ⟨_,named_concrete formed⟩
  | @tuple elements _ ih =>
    obtain ⟨typeIds,names,read,accepts,passes,filled⟩ := named_elements ih
    have found := parseTupleTypeId_tupleTypeId passes filled
    refine ⟨tupleTypeId typeIds,?_,?_,?_,?_,layer_filled _ _,?_,nofun⟩
    · rw [tupleOf,runtimeTypeId,names,Option.map_some]
    · rw [typeExprFromRuntimeId_tuple found,read]
    · rw [acceptsConcrete_tupleOf found]
      exact accepts
    · refine passes_layer "tuple" (by simp) ?_
      rw [String.toList_intercalate]
      exact passes_intercalate fun p inside => by
        obtain ⟨t,here,rfl⟩ := List.mem_map.mp inside
        exact passes t here
    · exact differ (head_tuple typeIds) (d := '*') rfl (by decide)
  | stream _ ih => exact ⟨_,ih.choose_spec.stream⟩
  | list _ ih => exact ⟨_,ih.choose_spec.list⟩
  | listOfAny => exact ⟨_,named_listOfAny⟩
  | asset _ ih => exact ⟨_,ih.choose_spec.asset⟩

end TypeExpr

end Dinkster
