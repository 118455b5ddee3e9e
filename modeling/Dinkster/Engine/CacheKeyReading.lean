import Dinkster.Engine.CacheKey

/-! Reading a cache key's parts back. The sections form a prefix-free code, so two equal
lists of parts can only differ where the sections of one call end and its inputs
begin, or inside the metadata of an observed input. -/
namespace Dinkster
open Json Canonical

variable {Obj : Type}

inductive KeySection
  | regionOccurrence (scope : String)
  | extensions (behaviorHash : String)
  | assetFolders (folders : AssetFolderContext)
  | executor (target cacheTag : String)
  | attentionRouteToken (token : AttentionRouteToken)
  | undemanded (inputs : UndemandedInputs)

namespace KeySection

def marker : KeySection → String
  | regionOccurrence _ => "region-occurrence"
  | extensions _ => "extensions"
  | assetFolders _ => "asset-folders"
  | executor _ _ => "executor"
  | attentionRouteToken _ => "attention-route-token"
  | undemanded _ => "connected-undemanded-lazy-inputs"

def body : KeySection → List ByteArray
  | regionOccurrence scope => [utf8 scope]
  | extensions behaviorHash => [utf8 behaviorHash]
  | assetFolders folders => [utf8 (dumps .spaced folders.toWire)]
  | executor target cacheTag => [utf8 target,utf8 cacheTag]
  | attentionRouteToken token => [utf8 (canonicalAttentionRouteTokenText token)]
  | undemanded inputs => toBytes8 inputs.ids.length :: inputs.ids.map utf8

def parts (part : KeySection) : List ByteArray := utf8 part.marker :: part.body

end KeySection

def identity (schema : KeySchema) (value : Value Obj) : String × String × List ValueMeta :=
  (value.typeId,value.fingerprint,observed schema value)

def named (schema : KeySchema) (e : String × Value Obj) :
    String × String × String × List ValueMeta :=
  (e.1,identity schema e.2)

def inputHead (schema : KeySchema) (e : String × Value Obj) : List ByteArray :=
  [utf8 e.1,utf8 e.2.typeId,utf8 e.2.fingerprint] ++
    if schema.inputValues then [utf8 "input-envelope-metadata"] else []

theorem inputParts_eq (schema : KeySchema) (e : String × Value Obj) :
    inputParts schema e = inputHead schema e ++ (observed schema e.2).map defaultEncode := by
  unfold inputParts inputHead observed
  split
  · simp only [List.cons_append,List.nil_append,List.map_map]
    rfl
  · rfl

theorem inputHead_inj {schema : KeySchema} {e e' : String × Value Obj} {x y : List ByteArray}
    (same : inputHead schema e ++ x = inputHead schema e' ++ y) :
    e.1 = e'.1 ∧ e.2.typeId = e'.2.typeId ∧ e.2.fingerprint = e'.2.fingerprint ∧ x = y := by
  unfold inputHead at same
  simp only [List.cons_append,List.nil_append,List.cons.injEq,utf8_inj,
    List.append_cancel_left_eq] at same
  exact same

/-- Both lists agree up to an input of which the longer tree's further metadata is read as
the inputs that follow in the other list. -/
def Swallows (schema : KeySchema) (long short : List (String × Value Obj)) : Prop :=
  ∃ before before' e e' more after after',
    long = before ++ e :: after ∧ short = before' ++ e' :: after' ∧
      before.map (named schema) = before'.map (named schema) ∧
      e.1 = e'.1 ∧ e.2.typeId = e'.2.typeId ∧ e.2.fingerprint = e'.2.fingerprint ∧
      observed schema e.2 = observed schema e'.2 ++ more ∧ more ≠ [] ∧
      more.map defaultEncode ++ after.flatMap (inputParts schema) =
        after'.flatMap (inputParts schema)

private theorem Swallows.cons {schema : KeySchema} {long short : List (String × Value Obj)}
    {e e' : String × Value Obj} (same : named schema e = named schema e')
    (swallows : Swallows schema long short) : Swallows schema (e :: long) (e' :: short) := by
  obtain ⟨before,before',d,d',more,after,after',rfl,rfl,befores,rest⟩ := swallows
  refine ⟨e :: before,e' :: before',d,d',more,after,after',rfl,rfl,?_,rest⟩
  rw [List.map_cons,List.map_cons,same,befores]

theorem metadata_prefixFree : PrefixFree fun m => [defaultEncode m] := by
  intro m m' x y same
  obtain ⟨head,rest⟩ := List.cons.inj same
  exact ⟨defaultEncode_injective head,rest⟩

theorem inputs_read (schema : KeySchema) : ∀ xs ys : List (String × Value Obj),
    xs.flatMap (inputParts schema) = ys.flatMap (inputParts schema) →
      xs.map (named schema) = ys.map (named schema) ∨ Swallows schema xs ys ∨
        Swallows schema ys xs
  | [],[],_ => .inl rfl
  | [],e :: ys,same => by
    rw [List.flatMap_cons,inputParts_eq,inputHead] at same
    cases same
  | e :: xs,[],same => by
    rw [List.flatMap_cons,inputParts_eq,inputHead] at same
    cases same
  | e :: xs,e' :: ys,same => by
    rw [List.flatMap_cons,List.flatMap_cons,inputParts_eq schema e,inputParts_eq schema e',
      List.append_assoc,List.append_assoc] at same
    obtain ⟨id,type,fingerprint,tails⟩ := inputHead_inj same
    rw [List.map_eq_flatMap,List.map_eq_flatMap] at tails
    obtain ⟨shared,left,right,metadata,metadata',ended,rest⟩ :=
      metadata_prefixFree.common _ _ _ _ tails
    by_cases longer : left = []
    · by_cases shorter : right = []
      · rw [longer,shorter] at rest
        have equal : named schema e = named schema e' := by
          simp only [named,identity,id,type,fingerprint,metadata,metadata',longer,shorter]
        rcases inputs_read schema xs ys rest with agree | swallows | swallows
        · exact .inl (by rw [List.map_cons,List.map_cons,equal,agree])
        · exact .inr (.inl (swallows.cons equal))
        · exact .inr (.inr (swallows.cons equal.symm))
      · rw [longer,List.append_nil] at metadata
        rw [longer] at rest
        refine .inr (.inr ⟨[],[],e',e,right,ys,xs,rfl,rfl,rfl,id.symm,type.symm,fingerprint.symm,
          by rw [metadata',metadata],shorter,?_⟩)
        rw [List.map_eq_flatMap]
        exact rest.symm
    · have shorter : right = [] := ended.resolve_left longer
      rw [shorter,List.append_nil] at metadata'
      rw [shorter] at rest
      refine .inr (.inl ⟨[],[],e,e',left,xs,ys,rfl,rfl,rfl,id,type,fingerprint,
        by rw [metadata,metadata'],longer,?_⟩)
      rw [List.map_eq_flatMap]
      exact rest

/-- What two calls under one key have in common. -/
structure Agree (schema : KeySchema) (a b : Invocation Obj) : Prop where
  scope : a.cacheScope = b.cacheScope
  extensions : a.extensionBehaviorHash = b.extensionBehaviorHash
  folders : a.assetFolders = b.assetFolders
  target : a.selection.map (·.target) = b.selection.map (·.target)
  tag : a.selection.map (·.cacheTag) = b.selection.map (·.cacheTag)
  token : a.selection.bind (·.attentionRouteToken) = b.selection.bind (·.attentionRouteToken)
  undemanded : a.connectedUndemandedInputs = b.connectedUndemandedInputs
  inputs : ∀ id, (a.inputs.get? id).map (identity schema) = (b.inputs.get? id).map (identity schema)

theorem Agree.refl (schema : KeySchema) (a : Invocation Obj) : Agree schema a a :=
  ⟨rfl,rfl,rfl,rfl,rfl,rfl,rfl,fun _ => rfl⟩

theorem Agree.symm {schema : KeySchema} {a b : Invocation Obj} (agree : Agree schema a b) :
    Agree schema b a :=
  ⟨agree.scope.symm,agree.extensions.symm,agree.folders.symm,agree.target.symm,agree.tag.symm,
    agree.token.symm,agree.undemanded.symm,fun id => (agree.inputs id).symm⟩

private def plainSchema : KeySchema := ⟨"sha256:0",false,true⟩

def PlainIds (call : Invocation Obj) : Prop :=
  ∀ id ∈ call.inputs.keys, (∀ part : KeySection, id ≠ part.marker) ∧
    ∀ info : ValueMeta, utf8 id ≠ defaultEncode info

theorem PlainIds.entry {call : Invocation Obj} (plain : PlainIds call) {e : String × Value Obj}
    (member : e ∈ sortedInputs call) : (∀ part : KeySection, e.1 ≠ part.marker) ∧
      ∀ info : ValueMeta, utf8 e.1 ≠ defaultEncode info :=
  plain e.1 (List.mem_map_of_mem ((mem_sortedBy _ _ _).mp member))

theorem mem_named {schema : KeySchema} {call : Invocation Obj}
    {part : String × String × String × List ValueMeta} :
    part ∈ (sortedInputs call).map (named schema) ↔
      (call.inputs.get? part.1).map (identity schema) = some part.2 := by
  rw [List.mem_map]
  constructor
  · rintro ⟨e,member,rfl⟩
    have entry := (Dict.get?_eq_some_iff _ _ _).mpr ((mem_sortedBy _ _ _).mp member)
    show (call.inputs.get? e.1).map (identity schema) = some (identity schema e.2)
    rw [entry]
    rfl
  · intro found
    obtain ⟨value,entry,same⟩ := Option.map_eq_some_iff.mp found
    refine ⟨(part.1,value),(mem_sortedBy _ _ _).mpr ((Dict.get?_eq_some_iff _ _ _).mp entry),?_⟩
    exact Prod.ext rfl same

theorem Agree.named {schema : KeySchema} {a b : Invocation Obj} (agree : Agree schema a b) :
    (sortedInputs a).map (named schema) = (sortedInputs b).map (named schema) := by
  have ordered (call : Invocation Obj) : ((sortedInputs call).map (Dinkster.named schema)).Pairwise
      fun p p' => p.1 < p'.1 := by
    rw [List.pairwise_map]
    exact sortedBy_strict _ call.inputs.distinct
  have distinct (call : Invocation Obj) : ((sortedInputs call).map (Dinkster.named schema)).Nodup :=
    (ordered call).imp fun {p p'} before same => by
      rw [same] at before
      exact lt_irrefl _ before
  refine List.Perm.eq_of_pairwise ?_ (ordered a) (ordered b) ?_
  · intro p p' _ _ before after
    exact absurd after (lt_asymm before)
  · apply (List.perm_ext_iff_of_nodup (distinct a) (distinct b)).mpr
    intro part
    rw [mem_named,mem_named,agree.inputs]

end Dinkster
