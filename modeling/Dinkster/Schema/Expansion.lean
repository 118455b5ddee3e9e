import Dinkster.Schema.Effective

/-! What a template may expand to: a family has as many members as its bounds allow, a combo or a
slot at most one of its branches. Whatever a document stores, elaboration follows these rules. -/
namespace Dinkster.Dynamic
open Canonical Fallible TypeExpr

/-- The numbers of members that a family is declared with. A minimum counts for an optional tail
only where its members are required. -/
structure InputFamily.Allows (family : InputFamily) (template : List DynamicEntry) (count : Nat) :
    Prop where
  budget : count ≤ maxFamilyMembers
  most : ∀ most ∈ family.maxMembers, count ≤ most
  least : family.optionalAfterMinimum = false ∨ firstRequired template = true →
    family.minMembers ≤ count

def singleInput : List DynamicEntry → Bool
  | [.input _] => true
  | _ => false

mutual

/-- The ids that entries may expand to under a path. -/
inductive Expansion : String → List DynamicEntry → List String → Prop
  | nil (parent) : Expansion parent [] []
  | input {parent rest ids} (spec : InputSpec) (others : Expansion parent rest ids) :
    Expansion parent (.input spec :: rest) (joinPath parent spec.id :: ids)
  | family {parent rest ids here} (f : InputFamily) (template members)
    (distinct : members.Nodup) (allowed : f.Allows template members.length)
    (each : MemberExpansion (joinPath parent f.id) template members here)
    (others : Expansion parent rest ids) :
    Expansion parent (.family f template :: rest) (here ++ ids)
  | noOption {parent rest ids} (c : Combo) (options) (absent : c.required = false ∨ options = [])
    (others : Expansion parent rest ids) : Expansion parent (.combo c options :: rest) ids
  | option {parent rest ids here} (c : Combo) (options key inputs)
    (declared : (key,inputs) ∈ options) (branch : Expansion (joinPath parent c.id) inputs here) (others : Expansion parent rest ids) :
    Expansion parent (.combo c options :: rest) (here ++ ids)
  | openSlot {parent rest ids} (s : Slot) (inputs) (others : Expansion parent rest ids) :
    Expansion parent (.slot s inputs none :: rest) (joinPath parent s.id :: ids)
  | filledSlot {parent rest ids here} (s : Slot) (inputs)
    (branch : Expansion (joinPath parent s.id) inputs here) (others : Expansion parent rest ids) :
    Expansion parent (.slot s inputs none :: rest) (joinPath parent s.id :: here ++ ids)
  | noVariant {parent rest ids} (s : Slot) (inputs variants) (absent : s.required = false)
    (others : Expansion parent rest ids) :
    Expansion parent (.slot s inputs (some variants) :: rest) ids
  | variant {parent rest ids shared here} (s : Slot) (inputs variants key type own)
    (declared : (key,type,own) ∈ variants)
    (common : Expansion (joinPath parent s.id) inputs shared)
    (branch : Expansion (joinPath parent s.id) own here) (others : Expansion parent rest ids) :
    Expansion parent (.slot s inputs (some variants) :: rest)
      (joinPath parent s.id :: (shared ++ here) ++ ids)

/-- A member is an input of its own where the template is one input, else what the template expands
to. -/
inductive MemberExpansion : String → List DynamicEntry → List String → List String → Prop
  | nil (path template) : MemberExpansion path template [] []
  | single {path template members ids} (member : String) (one : singleInput template = true)
    (others : MemberExpansion path template members ids) :
    MemberExpansion path template (member :: members) (joinPath path member :: ids)
  | group {path template members ids here} (member : String) (many : singleInput template = false)
    (branch : Expansion (joinPath path member) template here)
    (others : MemberExpansion path template members ids) :
    MemberExpansion path template (member :: members) (here ++ ids)

end

theorem nodup_snoc {names : List String} (distinct : names.Nodup) {name : String}
    (fresh : name ∉ names) : (names ++ [name]).Nodup := by
  rw [← List.concat_eq_append]
  exact distinct.concat fresh

theorem addNew_nodup {names : List String} (distinct : names.Nodup) (name : String) :
    (addNew names name).Nodup := by
  unfold addNew
  split
  · exact distinct
  · rename_i fresh
    exact nodup_snoc distinct fresh

theorem membersIn_nodup (ids : List String) (path : String) : (membersIn ids path).Nodup := by
  unfold membersIn
  generalize ids.filterMap (memberOf path) = found
  suffices ∀ names : List String, names.Nodup → (found.foldl addNew names).Nodup from
    this [] List.nodup_nil
  induction found with
  | nil => exact fun _ distinct => distinct
  | cons name found ih => exact fun names distinct => ih _ (addNew_nodup distinct name)

theorem toString_injective {a b : Nat} (same : toString a = toString b) : a = b := by
  have digits : Nat.toDigits 10 a = Nat.toDigits 10 b := String.ofList_injective same
  rw [← Nat.ofDigitChars_ten_toDigits (n := a),digits,Nat.ofDigitChars_ten_toDigits]

theorem memberAt_injective {family : InputFamily} {p q : Nat} {name : String}
    (left : memberAt family p = .ok name) (right : memberAt family q = .ok name) : p = q := by
  unfold memberAt at left right
  cases declared : family.memberNames with
  | some names =>
    simp only [declared] at left right
    split at left
    · rename_i a here
      cases left
      split at right
      · rename_i there
        cases right
        obtain ⟨bound,_⟩ := List.getElem?_eq_some_iff.mp here
        exact (List.getElem?_inj bound (family.distinct names declared)).mp (here.trans there.symm)
      · cases right
    · cases left
  | none =>
    simp only [declared] at left right
    cases left
    have same := congrArg String.toList (Except.ok.inj right)
    simp only [String.toList_append,List.append_cancel_left_eq] at same
    exact (toString_injective (String.toList_injective same)).symm

theorem placeMembers_least {py : Python} {family : InputFamily} {path : String}
    {suffixes : List String} {positions : Dict String Int}
    (placed : placeMembers py family path true suffixes = .ok positions) :
    family.minMembers ≤ positions.keys.length := by
  unfold placeMembers at placed
  obtain ⟨before,_,rest⟩ := bind_ok.mp placed
  rw [if_pos rfl] at rest
  split at rest
  · cases rest
  · have named : ∀ ps : List Nat, ∀ before after : Dict String Int,
        ps.foldlM (fun (positions : Dict String Int) position => do
          let suffix ← memberAt family position
          pure (positions.set suffix (position : Int))) before = .ok after →
        before.keys ⊆ after.keys ∧
          ∀ p ∈ ps, ∃ name ∈ after.keys, memberAt family p = .ok name := by
      intro ps
      induction ps with
      | nil =>
        intro before after done
        cases done
        exact ⟨List.Subset.refl _,nofun⟩
      | cons p ps ih =>
        intro before after done
        rw [List.foldlM_cons] at done
        obtain ⟨next,here,more⟩ := bind_ok.mp done
        obtain ⟨name,at_,same⟩ := bind_ok.mp here
        cases same
        obtain ⟨kept,others⟩ := ih _ _ more
        have held : name ∈ after.keys := kept ((Dict.mem_keys_set _ _ _ _).mpr (.inl rfl))
        refine ⟨fun k inside => kept ((Dict.mem_keys_set _ _ _ _).mpr (.inr inside)),?_⟩
        exact List.forall_mem_cons.mpr ⟨⟨name,held,at_⟩,others⟩
    obtain ⟨_,each⟩ := named _ _ _ rest
    have distinct : ((List.range family.minMembers).map fun p =>
        ((memberAt family p).toOption).getD "").Nodup := by
      refine (List.nodup_map_iff_inj_on List.nodup_range).mpr fun p hp q hq same => ?_
      obtain ⟨a,_,left⟩ := each p hp
      obtain ⟨b,_,right⟩ := each q hq
      simp only [left,right,Except.toOption,Option.getD_some] at same
      exact memberAt_injective left (same ▸ right)
    have inside : ((List.range family.minMembers).map fun p =>
        ((memberAt family p).toOption).getD "") ⊆ positions.keys := by
      intro name member
      obtain ⟨p,hp,rfl⟩ := List.mem_map.mp member
      obtain ⟨a,held,at_⟩ := each p hp
      simpa [at_,Except.toOption] using held
    have counted := (distinct.subperm inside).length_le
    rwa [List.length_map,List.length_range] at counted

theorem checkCount_ok {family : InputFamily} {path : String} {count : Nat} {u : PUnit}
    (counted : checkCount family path count = .ok u) : count ≤ maxFamilyMembers ∧
      (∀ most ∈ family.maxMembers, count ≤ most) ∧
        (family.optionalAfterMinimum = false → family.minMembers ≤ count) := by
  obtain ⟨_,budget,rest⟩ := bind_ok.mp counted
  obtain ⟨_,least,most⟩ := bind_ok.mp rest
  rw [refuseIf_ok] at budget least most
  exact ⟨Nat.le_of_not_lt budget,
    fun bound declared => Nat.le_of_not_lt fun more => most ⟨bound,declared,more⟩,
    fun whole => Nat.le_of_not_lt fun fewer => least ⟨whole,fewer⟩⟩

theorem familyMembers_ok {py : Python} {doc : Document} {family : InputFamily}
    {template : List DynamicEntry} {path : String} {suffixes : List String}
    {positions : Dict String Int}
    (done : familyMembers py doc family template path = .ok (suffixes,positions)) :
    suffixes.Nodup ∧ family.Allows template suffixes.length := by
  unfold familyMembers at done
  dsimp only at done
  split at done
  · rename_i tail
    obtain ⟨placed,placing,rest⟩ := bind_ok.mp done
    obtain ⟨_,counted,same⟩ := bind_ok.mp rest
    obtain ⟨rfl,rfl⟩ := Prod.mk.inj (Except.ok.inj same)
    obtain ⟨budget,most,_⟩ := checkCount_ok counted
    refine ⟨placed.distinct,⟨budget,most,fun wanted => ?_⟩⟩
    have required : firstRequired template = true := by
      rcases wanted with other | required
      · rw [tail] at other
        cases other
      · exact required
    rw [required] at placing
    exact placeMembers_least placing
  · rename_i whole
    obtain ⟨_,counted,same⟩ := bind_ok.mp done
    obtain ⟨rfl,rfl⟩ := Prod.mk.inj (Except.ok.inj same)
    obtain ⟨budget,most,least⟩ := checkCount_ok counted
    exact ⟨membersIn_nodup _ _,⟨budget,most,fun _ => least (Bool.eq_false_iff.mpr whole)⟩⟩

def Elaborated.ids (x : Elaborated) : List String := x.inputs.map (·.id)

theorem Elaborated.ids_append (x y : Elaborated) : (x.append y).ids = x.ids ++ y.ids :=
  List.map_append

theorem ids_foldl_append (xs : List Elaborated) (x : Elaborated) :
    (xs.foldl Elaborated.append x).ids = x.ids ++ xs.flatMap Elaborated.ids := by
  induction xs generalizing x with
  | nil => simp
  | cons y xs ih =>
    rw [List.foldl_cons,ih,Elaborated.ids_append,List.flatMap_cons,List.append_assoc]

theorem scopeInputs_ids (family : InputFamily) (path : String) (inputs : List InputSpec) :
    (scopeInputs family path inputs).map (·.id) = inputs.map (·.id) := by
  unfold scopeInputs
  split
  · rw [List.map_map]
    rfl
  · rfl

section Entries

variable {py : Python} {doc : Document}

theorem elaborateMember_expands {family : InputFamily} {template : List DynamicEntry}
    {path : String} {positions : Dict String Int} {nested : String → Except ElaborationError Elaborated}
    (expands : ∀ memberPath x, nested memberPath = .ok x → Expansion memberPath template x.ids)
    {suffix : String} {x : Elaborated}
    (done : elaborateMember py family template path positions nested suffix = .ok x)
    {members ids : List String} (others : MemberExpansion path template members ids) :
    MemberExpansion path template (suffix :: members) (x.ids ++ ids) := by
  obtain ⟨_,_,rest⟩ := bind_ok.mp done
  split at rest
  · cases rest
    exact .single suffix rfl others
  · rename_i many
    obtain ⟨inner,branch,same⟩ := bind_ok.mp rest
    cases same
    have grouped : singleInput template = false := by
      unfold singleInput
      split
      · exact absurd rfl (many _)
      · rfl
    refine .group suffix grouped ?_ others
    rw [Elaborated.ids,scopeInputs_ids]
    exact expands _ _ branch

theorem elaborateFamily_expands {family : InputFamily} {template : List DynamicEntry}
    {path : String} {nested : String → Except ElaborationError Elaborated}
    (expands : ∀ memberPath x, nested memberPath = .ok x → Expansion memberPath template x.ids)
    {x : Elaborated} (done : elaborateFamily py doc family template path nested = .ok x) :
    ∃ members, members.Nodup ∧ family.Allows template members.length ∧
      MemberExpansion path template members x.ids := by
  obtain ⟨⟨suffixes,positions⟩,chosen,rest⟩ := bind_ok.mp done
  obtain ⟨members,each,same⟩ := bind_ok.mp rest
  cases same
  obtain ⟨distinct,allowed⟩ := familyMembers_ok chosen
  refine ⟨suffixes,distinct,allowed,?_⟩
  rw [ids_foldl_append]
  refine List.Forall₂.rec (motive := fun suffixes members _ =>
    MemberExpansion path template suffixes (members.flatMap Elaborated.ids)) (.nil path template) ?_
    (mapM_ok.mp each)
  intro suffix member _ _ here _ others
  exact elaborateMember_expands expands here others

theorem choice_none {path : String} {raw : Option Raw} {required : Bool}
    (none_ : choice path raw required = .ok none) : required = false := by
  unfold choice at none_
  split at none_
  · split at none_
    · cases none_
    · rename_i optional
      exact Bool.eq_false_iff.mpr optional
  · split at none_
    · cases none_
    · rename_i optional
      exact Bool.eq_false_iff.mpr optional
  · cases none_
  · cases none_

mutual

theorem elaborateEntries_expands : ∀ (entries : List DynamicEntry) (parent : String)
    (x : Elaborated), elaborateEntries py doc parent entries = .ok x → Expansion parent entries x.ids
  | [],parent,x,done => by
    cases done
    exact .nil parent
  | entry :: rest,parent,x,done => by
    rw [elaborateEntries] at done
    obtain ⟨first,here,more⟩ := bind_ok.mp done
    obtain ⟨others,there,same⟩ := bind_ok.mp more
    cases same
    rw [Elaborated.ids_append]
    exact elaborateEntry_expands entry parent rest others.ids
      (elaborateEntries_expands rest parent others there) first here

theorem elaborateEntry_expands : ∀ (entry : DynamicEntry) (parent : String)
    (rest : List DynamicEntry) (ids : List String), Expansion parent rest ids → ∀ x : Elaborated,
      elaborateEntry py doc parent entry = .ok x → Expansion parent (entry :: rest) (x.ids ++ ids)
  | .input spec,parent,rest,ids,others,x,done => by
    cases done
    exact .input spec others
  | .family f template,parent,rest,ids,others,x,done => by
    rw [elaborateEntry] at done
    obtain ⟨members,distinct,allowed,each⟩ := elaborateFamily_expands
      (fun memberPath y => elaborateEntries_expands template memberPath y) done
    exact .family f template members distinct allowed each others
  | .combo c options,parent,rest,ids,others,x,done => by
    rw [elaborateEntry] at done
    unfold elaborateCombo at done
    split at done
    · rename_i absent
      cases done
      exact .noOption c options (.inr (List.isEmpty_iff.mp absent.1)) others
    · obtain ⟨picked,chosen,more⟩ := bind_ok.mp done
      split at more
      · cases more
        exact .noOption c options (.inl (choice_none chosen)) others
      · rename_i key
        obtain ⟨inner,branch,same⟩ := bind_ok.mp more
        cases same
        obtain ⟨inputs,declared,expanded⟩ := elaborateOption_expands options _ key inner branch
        exact .option c options key inputs declared expanded others
  | .slot s inputs none,parent,rest,ids,others,x,done => by
    rw [elaborateEntry] at done
    unfold elaborateOpenSlot at done
    split at done
    · cases done
    · split at done
      · cases done
        exact .openSlot s inputs others
      · obtain ⟨nested,branch,same⟩ := bind_ok.mp done
        cases same
        exact .filledSlot s inputs (elaborateEntries_expands inputs _ nested branch) others
  | .slot s inputs (some variants),parent,rest,ids,others,x,done => by
    rw [elaborateEntry] at done
    obtain ⟨_,_,rest'⟩ := bind_ok.mp done
    obtain ⟨picked,chosen,more⟩ := bind_ok.mp rest'
    split at more
    · cases more
      exact .noVariant s inputs variants (choice_none chosen) others
    · rename_i key
      obtain ⟨⟨type,nested⟩,branch,same⟩ := bind_ok.mp more
      cases same
      obtain ⟨own,common,here,declared,first,both,expanded⟩ :=
        elaborateVariant_expands variants _ key _ type nested branch
      have whole := Expansion.variant s inputs variants key type own declared
        (elaborateEntries_expands inputs _ common first) expanded others
      rw [← both] at whole
      exact whole

theorem elaborateOption_expands : ∀ (options : List (String × List DynamicEntry))
    (path key : String) (x : Elaborated), elaborateOption py doc path key options = .ok x →
      ∃ inputs, (key,inputs) ∈ options ∧ Expansion path inputs x.ids
  | [],path,key,x,done => by cases done
  | (name,inputs) :: rest,path,key,x,done => by
    rw [elaborateOption] at done
    split at done
    · rename_i same
      exact ⟨inputs,same ▸ List.mem_cons_self,elaborateEntries_expands inputs path x done⟩
    · obtain ⟨inputs',member,branch⟩ := elaborateOption_expands rest path key x done
      exact ⟨inputs',List.mem_cons_of_mem _ member,branch⟩

theorem elaborateVariant_expands : ∀ (variants : List (String × TypeExpr × List DynamicEntry))
    (path key : String) (shared : Except ElaborationError Elaborated) (type : TypeExpr)
    (x : Elaborated), elaborateVariant py doc path key shared variants = .ok (type,x) →
      ∃ own common here, (key,type,own) ∈ variants ∧ shared = .ok common ∧
        x.ids = common.ids ++ here ∧ Expansion path own here
  | [],path,key,shared,type,x,done => by cases done
  | (name,type',inputs) :: rest,path,key,shared,type,x,done => by
    rw [elaborateVariant] at done
    split at done
    · rename_i same
      obtain ⟨common,first,more⟩ := bind_ok.mp done
      obtain ⟨own,here,last⟩ := bind_ok.mp more
      obtain ⟨rfl,rfl⟩ := Prod.mk.inj (Except.ok.inj last)
      exact ⟨inputs,common,own.ids,same ▸ List.mem_cons_self,first,Elaborated.ids_append _ _,
        elaborateEntries_expands inputs path own here⟩
    · obtain ⟨own,common,here,member,found⟩ := elaborateVariant_expands rest path key shared type x
        done
      exact ⟨own,common,here,List.mem_cons_of_mem _ member,found⟩

end

end Entries

end Dinkster.Dynamic
