import Dinkster.Graph.LoweringCourse

/-! Lowering reaches a fixpoint on settled graphs, under every listing of the nodes. A selector
that is visited while its selector input still links to a selector lowered later stays behind. -/
namespace Dinkster.Lowering
open Relation

section
variable (schemas : Schemas) (graph : Nodes) (targets : List String)

/-- The nodes that are neither fixed selectors nor unneeded, with their links led through the
fixed selectors. -/
structure Lowered (nodes : Nodes) : Prop where
  kept : ∀ n, n ∈ nodes.keys ↔
    n ∈ graph.keys ∧ ¬ Fixed schemas graph n ∧ ¬ Unneeded schemas graph targets n
  inputs : ∀ n node', nodes.get? n = some node' → ∃ node now, graph.get? n = some node ∧
    node' = mapInputs now node ∧ ∀ e ∈ inputsOf node,
      Leads schemas graph e.2 (now e.2) ∧ ∀ u, ¬ Passes schemas graph (now e.2) u

end

section
variable {schemas : Schemas} {graph : Nodes} {targets : List String}

theorem Lowered.unique {nodes nodes' : Nodes} (one : Lowered schemas graph targets nodes)
    (two : Lowered schemas graph targets nodes') (n : String) : nodes.get? n = nodes'.get? n := by
  have among {a b : Nodes} (left : Lowered schemas graph targets a)
      (right : Lowered schemas graph targets b) {node : AnyNode} (held : a.get? n = some node) :
      b.get? n = some node := by
    obtain ⟨found,held'⟩ := (Dict.mem_keys_iff _ _).mp
      ((right.kept n).mpr ((left.kept n).mp (keys_of_get? held)))
    obtain ⟨source,now,here,rfl,ends⟩ := left.inputs n _ held
    obtain ⟨source',now',here',rfl,ends'⟩ := right.inputs n _ held'
    obtain rfl := Option.some.inj (here.symm.trans here')
    rw [held',mapInputs_congr fun e inside =>
      (ends' e inside).1.unique (ends e inside).1 (ends' e inside).2 (ends e inside).2]
  exact Option.ext fun node => ⟨among one two,among two one⟩

theorem Lowered.linked (settled : Settled schemas graph targets) {nodes : Nodes}
    (lowered : Lowered schemas graph targets nodes) {n : String} {node : AnyNode}
    {selector : Selector} (declared : SelectorAt schemas nodes n node selector) :
    ∃ link, inputAt node selector.spec.input = some (.link link) := by
  obtain ⟨source,now,found,rfl,ends⟩ := lowered.inputs n node declared.1
  have before : SelectorAt schemas graph n source selector :=
    ⟨found,by rw [← selectorOf_mapInputs schemas now]; exact declared.2⟩
  have unfixed := ((lowered.kept n).mp (keys_of_get? declared.1)).2.1
  by_contra unlinked
  refine unfixed ⟨source,selector,before,fun link selected => unlinked ?_⟩
  obtain ⟨last,reached⟩ := settled.linked n source selector before link selected _
    (ends _ (inputAt_mem selected)).1
  exact ⟨last,by rw [inputAt_mapInputs,selected,Option.map_some,reached]⟩

section
variable {lowered pruned : Set String} {now : InputValue → InputValue} {w : Worklist}

theorem Course.collected (settled : Settled schemas graph targets)
    (course : Course schemas graph targets lowered pruned now w)
    (unfixed : ∀ n ∈ w.nodes.keys, ¬ Fixed schemas graph n) {n : String}
    (inactive : Inactive schemas graph n) (left : n ∈ w.nodes.keys) : n ∈ w.candidates := by
  obtain ⟨z,link,branch,known,path⟩ := inactive
  -- A covered node is a candidate, or its branches are enlisted.
  have arrive (link : Link) (read : ReadInactive schemas graph (.link link))
      (old : Enlisted w (now (.link link))) :
      (link.nodeId ∈ w.nodes.keys → link.nodeId ∈ w.candidates) ∧
        (link.nodeId ∈ lowered → ∀ side v, Branch schemas graph side link.nodeId v →
          Enlisted w (now v)) := by
    refine ⟨fun left => ?_,fun spliced side v branch => ?_⟩
    · have stays : now (.link link) = .link link := course.kept _ fun link' u same step => by
        obtain rfl := InputValue.link.inj same
        exact (course.key.mp left).2.1
      exact old link stays left
    · cases side with
      | false => exact course.others _ spliced v branch
      | true =>
        obtain ⟨node,selector,b,declared,selected,active⟩ := branch
        have named := settled.named link node selector read (course.fixed _ spliced) declared
        have step : Passes schemas graph (.link link) v :=
          ⟨_,node,selector,declared,by rw [← named],node,selector,b,declared,selected,active⟩
        exact course.passed link v spliced step ▸ old
  have cover : (n ∈ w.nodes.keys → n ∈ w.candidates) ∧ (n ∈ lowered → ∀ side v,
      Branch schemas graph side n v → Enlisted w (now v)) := by
    clear left
    induction path with
    | refl =>
      refine arrive link (.inl ⟨z,branch⟩) ?_
      by_cases spliced : z ∈ lowered
      · exact course.others z spliced _ branch
      · obtain ⟨node,key,found,inside⟩ := branch.read
        have gone : z ∈ pruned := by
          by_contra unpruned
          exact unfixed z (course.key.mpr ⟨keys_of_get? found,spliced,unpruned⟩) branch.fixed
        exact course.enlisted z node found spliced (.inr gone) _ inside
    | tail before edge ih =>
      rename_i m k
      obtain ⟨known',node,found,source⟩ := edge
      obtain ⟨e,inside,reads⟩ := mem_sources.mp source
      obtain ⟨key,value⟩ := e
      cases value with
      | link last =>
        obtain rfl := Option.some.inj reads
        have within : Inactive schemas graph m := ⟨z,link,branch,known,before⟩
        refine arrive last (.inr ⟨m,node,_,within,found,inside,rfl⟩) ?_
        by_cases spliced : m ∈ lowered
        · obtain ⟨node',selector,declared,plain⟩ := course.fixed m spliced
          obtain rfl := Option.some.inj (found.symm.trans declared.1)
          have fixed := course.fixed m spliced
          obtain ⟨b,side⟩ := settled.plain m node selector within fixed declared _ inside last rfl
          obtain ⟨-,a,node',selector',b',declared',selected,-⟩ :=
            settled.usable m fixed
          obtain ⟨rfl,rfl⟩ := declared.unique declared'
          refine ih.2 spliced (b' == b) _ ⟨node,selector,b',declared,selected,?_⟩
          rw [show (b' == (b' == b)) = b by cases b <;> cases b' <;> rfl]
          exact side
        · by_cases gone : m ∈ pruned
          · exact course.enlisted m node found spliced (.inr gone) _ inside
          · have left := course.key.mpr ⟨keys_of_get? found,spliced,gone⟩
            exact course.enlisted m node found spliced (.inl (ih.1 left)) _ inside
      | typed typed => cases reads
      | literal value => cases reads
  exact cover.1 left

theorem Course.gone (settled : Settled schemas graph targets)
    (course : Course schemas graph targets lowered pruned now w)
    (unfixed : ∀ n ∈ w.nodes.keys, ¬ Fixed schemas graph n)
    (stable : removable w.nodes w.candidates targets = []) {n : String}
    (unneeded : Unneeded schemas graph targets n) : n ∉ w.nodes.keys := by
  induction unneeded with
  | intro n inactive free users ih =>
    intro left
    have candidate := course.collected settled unfixed inactive left
    have read : n ∈ referenced w.nodes := by
      by_contra unread
      have removed : n ∈ removable w.nodes w.candidates targets :=
        List.mem_filter.mpr ⟨left,decide_eq_true ⟨candidate,free,unread⟩⟩
      rw [stable] at removed
      cases removed
    obtain ⟨⟨m,node'⟩,inside,source⟩ := List.mem_flatMap.mp read
    have held := (Dict.get?_eq_some_iff _ _ _).mpr inside
    have here := keys_of_get? held
    obtain ⟨node,found,-,-,rfl⟩ := (course.left m _).mp held
    obtain ⟨e',reads',same⟩ := mem_sources.mp source
    rw [inputsOf_mapInputs] at reads'
    obtain ⟨e,reads,rfl⟩ := List.mem_map.mp reads'
    have path := course.leads e.2
    generalize now e.2 = reached at same path
    cases reached with
    | link last =>
      exact ih m node found (unfixed m here) e reads last (Option.some.inj same) path here
    | typed typed => cases same
    | literal value => cases same

theorem Course.settle (settled : Settled schemas graph targets)
    (course : Course schemas graph targets lowered pruned now w)
    (unfixed : ∀ n ∈ w.nodes.keys, ¬ Fixed schemas graph n)
    (stable : removable w.nodes w.candidates targets = []) :
    Lowered schemas graph targets w.nodes := by
  refine ⟨fun n => ⟨fun left => ?_,fun here => ?_⟩,fun n node' held => ?_⟩
  · exact ⟨(course.key.mp left).1,unfixed n left,
      fun bad => course.gone settled unfixed stable bad left⟩
  · obtain ⟨known,plain,needed⟩ := here
    exact course.key.mpr ⟨known,fun bad => plain (course.fixed n bad),
      fun bad => needed (course.unneeded n bad plain)⟩
  · obtain ⟨node,found,unlowered,unpruned,rfl⟩ := (course.left n node').mp held
    refine ⟨node,now,found,rfl,fun e inside => ⟨course.leads e.2,fun u step => ?_⟩⟩
    obtain ⟨link,same,fixed,-⟩ := step.linked
    obtain ⟨node',selector,declared,-⟩ := id fixed
    refine unfixed link.nodeId (course.key.mpr ⟨keys_of_get? declared.1,?_,?_⟩) fixed
    · exact course.stopped e.2 link u same (same ▸ step)
    · exact course.unread n node found unlowered unpruned e inside link (same ▸ course.leads e.2)

theorem Course.finish (settled : Settled schemas graph targets)
    (course : Course schemas graph targets lowered pruned now w)
    (finished : nextSelector schemas w = none) :
    Lowered schemas graph targets (Lowering.prune w.nodes w.candidates targets) := by
  obtain ⟨nodes,candidates,runtime⟩ := w
  have unfixed : ∀ n ∈ nodes.keys, ¬ Fixed schemas graph n := by
    intro n left fixed
    obtain ⟨node',held⟩ := (Dict.mem_keys_iff _ _).mp left
    obtain ⟨node,found,-,-,rfl⟩ := (course.left n node').mp held
    obtain ⟨source,selector,declared,-⟩ := id fixed
    obtain rfl := Option.some.inj (found.symm.trans declared.1)
    have again : selectorOf schemas (mapInputs now node) = some selector := by
      rw [selectorOf_mapInputs]
      exact declared.2
    exact course.runtime n (nextSelector_none finished held again) fixed
  obtain ⟨pruned',after⟩ := course.prune
  refine after.settle settled (fun n left => ?_) (removable_prune nodes candidates targets)
  obtain ⟨node,held⟩ := (Dict.mem_keys_iff _ _).mp left
  exact unfixed n (keys_of_get? (get?_prune held))

theorem Course.round (settled : Settled schemas graph targets) (reprText : String → String)
    (submitted : Nodes) (course : Course schemas graph targets lowered pruned now w) :
    (∃ nodes, round reprText schemas submitted targets w = .done ⟨nodes,targets,[]⟩ ∧
      Lowered schemas graph targets nodes) ∨
    ∃ w', round reprText schemas submitted targets w = .next w' ∧
      ∃ lowered' pruned' now', Course schemas graph targets lowered' pruned' now' w' := by
  cases found : nextSelector schemas w with
  | none =>
    refine .inl ⟨_,?_,course.finish settled found⟩
    rw [Lowering.round,found]
  | some next =>
    obtain ⟨n,node',selector⟩ := next
    obtain ⟨held,again,fresh⟩ := nextSelector_some found
    obtain ⟨node,here,unlowered,unpruned,rfl⟩ := (course.left n node').mp held
    have declared : SelectorAt schemas graph n node selector :=
      ⟨here,by rw [← selectorOf_mapInputs schemas now]; exact again⟩
    have step : Lowering.round reprText schemas submitted targets w =
        lowerOne reprText submitted targets w n (mapInputs now node) selector := by
      rw [Lowering.round,found]
    right
    by_cases fixed : Fixed schemas graph n
    · obtain ⟨free,a,branch⟩ := settled.usable n fixed
      obtain ⟨node₂,selector₂,b,declared₂,selected,active⟩ := id branch
      obtain ⟨rfl,rfl⟩ := declared.unique declared₂
      have other (v : InputValue) : inputAt node (selector.spec.branches !b) = some v ↔
          Branch schemas graph false n v := by
        constructor
        · intro unselected
          exact ⟨node,selector,b,declared,selected,by cases b <;> exact unselected⟩
        · rintro ⟨node₃,selector₃,b₃,declared₃,selected₃,unselected⟩
          obtain ⟨rfl,rfl⟩ := declared.unique declared₃
          rw [selected] at selected₃
          simp only [Option.some.injEq,InputValue.literal.injEq,Json.Value.bool.injEq] at selected₃
          subst selected₃
          cases b <;> exact unselected
      have still : now (.literal (.bool b)) = .literal (.bool b) :=
        course.kept _ fun link u same => by cases same
      have active : inputAt node (selector.spec.branches b) = some a := by
        cases b <;> exact active
      obtain ⟨pruned',after⟩ := Course.prune
        (course.lower settled declared branch unlowered unpruned other)
      refine ⟨_,?_,_,pruned',_,after⟩
      rw [step,lowerOne]
      simp only [inputAt_mapInputs,selected,active,Option.map_some,still,if_neg free]
    · obtain ⟨link,selected⟩ : ∃ link, inputAt node selector.spec.input = some (.link link) := by
        by_contra unlinked
        exact fixed ⟨node,selector,declared,fun link same => unlinked ⟨link,same⟩⟩
      obtain ⟨last,reached⟩ := settled.linked n node selector declared link selected _
        (course.leads _)
      refine ⟨{ w with runtimeSelectors := n :: w.runtimeSelectors },?_,lowered,pruned,now,?_⟩
      · rw [step,lowerOne]
        simp only [inputAt_mapInputs,selected,Option.map_some,reached]
      · refine ⟨course.toResidue,course.inactive,course.others,course.enlisted,fun m inside => ?_⟩
        rcases List.mem_cons.mp inside with rfl | old
        · exact fixed
        · exact course.runtime m old

theorem Course.run (settled : Settled schemas graph targets) (reprText : String → String)
    (submitted : Nodes) (course : Course schemas graph targets lowered pruned now w) :
    ∃ nodes, lowerFrom reprText schemas submitted targets w = ⟨nodes,targets,[]⟩ ∧
      Lowered schemas graph targets nodes := by
  induction size : w.unvisited.length using Nat.strong_induction_on
    generalizing lowered pruned now w with
  | _ size ih =>
    rcases course.round settled reprText submitted with
      ⟨nodes,done,result⟩ | ⟨w',goes,lowered',pruned',now',after⟩
    · exact ⟨nodes,lowerFrom_done done,result⟩
    · obtain ⟨n,node,selector,held,-,fresh,shrinks⟩ := round_next goes
      obtain ⟨nodes,done,result⟩ := ih _ (size ▸ shrinks.shrinks held fresh) after rfl
      exact ⟨nodes,(lowerFrom_next goes).trans done,result⟩

end

end

section
variable (reprText : String → String) (schemas : Schemas)

end

def plainNode (nodeType : String) (inputs : Inputs) : AnyNode := .node ⟨nodeType,inputs,[],[]⟩

/-- The selector input of `x` reads `y`, whose selected branch is a literal. -/
def chain : Nodes := ⟨[("x",plainNode "switch" [("switch",.link ⟨"y","out"⟩),
    ("off",.literal (.int 0)),("on",.literal (.int 1))]),
  ("y",plainNode "switch" [("switch",.literal (.bool true)),("on",.literal (.bool true))]),
  ("sink",plainNode "sink" [("value",.link ⟨"x","out"⟩)])],by decide⟩

end Dinkster.Lowering
