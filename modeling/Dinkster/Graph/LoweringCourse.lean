import Dinkster.Graph.LoweringStatic

/-! The course of lowering a settled graph: which nodes are left, what their inputs have become,
and which candidates have been collected, whatever the order of the rounds. -/
namespace Dinkster.Lowering
open Relation

section
variable (schemas : Schemas) (graph : Nodes) (targets : List String)

def Enlisted (w : Worklist) (v : InputValue) : Prop :=
  ∀ link, v = .link link → link.nodeId ∈ w.nodes.keys → link.nodeId ∈ w.candidates

/-- The nodes after the selectors in `lowered` were spliced out and those in `pruned` removed;
`now` is what an input value of the submitted graph has become. -/
structure Residue (lowered pruned : Set String) (now : InputValue → InputValue) (nodes : Nodes) :
    Prop where
  left : ∀ n node', nodes.get? n = some node' ↔ ∃ node, graph.get? n = some node ∧
    n ∉ lowered ∧ n ∉ pruned ∧ node' = mapInputs now node
  fixed : ∀ n ∈ lowered, Fixed schemas graph n
  leads : ∀ v, Leads schemas graph v (now v)
  stopped : ∀ v link u, now v = .link link → Passes schemas graph (.link link) u →
    link.nodeId ∉ lowered
  passed : ∀ link u, link.nodeId ∈ lowered → Passes schemas graph (.link link) u →
    now (.link link) = now u
  kept : ∀ v, (∀ link u, v = .link link → Passes schemas graph (.link link) u →
    link.nodeId ∉ lowered) → now v = v
  unread : ∀ n node, graph.get? n = some node → n ∉ lowered → n ∉ pruned →
    ∀ e ∈ inputsOf node, ∀ link, Leads schemas graph e.2 (.link link) → link.nodeId ∉ pruned
  unneeded : ∀ n ∈ pruned, ¬ Fixed schemas graph n → Unneeded schemas graph targets n

/-- The candidates are the inactive nodes that no selector still to be lowered hides. -/
structure Course (lowered pruned : Set String) (now : InputValue → InputValue) (w : Worklist) :
    Prop extends Residue schemas graph targets lowered pruned now w.nodes where
  inactive : ∀ n ∈ w.candidates, Inactive schemas graph n
  others : ∀ n ∈ lowered, ∀ v, Branch schemas graph false n v → Enlisted w (now v)
  enlisted : ∀ n node, graph.get? n = some node → n ∉ lowered →
    n ∈ w.candidates ∨ n ∈ pruned → ∀ e ∈ inputsOf node, Enlisted w (now e.2)
  runtime : ∀ n ∈ w.runtimeSelectors, ¬ Fixed schemas graph n

end

section
variable {schemas : Schemas} {graph : Nodes} {targets : List String} {lowered pruned : Set String}
  {now : InputValue → InputValue} {nodes : Nodes} {w : Worklist}

theorem Residue.key (residue : Residue schemas graph targets lowered pruned now nodes)
    {n : String} : n ∈ nodes.keys ↔ n ∈ graph.keys ∧ n ∉ lowered ∧ n ∉ pruned := by
  rw [Dict.mem_keys_iff,Dict.mem_keys_iff]
  constructor
  · rintro ⟨node',held⟩
    obtain ⟨node,found,unlowered,unpruned,-⟩ := (residue.left n node').mp held
    exact ⟨⟨node,found⟩,unlowered,unpruned⟩
  · rintro ⟨⟨node,found⟩,unlowered,unpruned⟩
    exact ⟨_,(residue.left n _).mpr ⟨node,found,unlowered,unpruned,rfl⟩⟩

theorem Residue.mem_referenced (residue : Residue schemas graph targets lowered pruned now nodes)
    {m : String} {node : AnyNode} (found : graph.get? m = some node) (unlowered : m ∉ lowered)
    (unpruned : m ∉ pruned) {e : String × InputValue} (inside : e ∈ inputsOf node) {link : Link}
    (value : now e.2 = .link link) : link.nodeId ∈ referenced nodes := by
  have held := (residue.left m _).mpr ⟨node,found,unlowered,unpruned,rfl⟩
  refine List.mem_flatMap.mpr ⟨_,(Dict.get?_eq_some_iff _ _ _).mp held,?_⟩
  refine mem_sources.mpr ⟨(e.1,now e.2),?_,by rw [value]; rfl⟩
  rw [inputsOf_mapInputs]
  exact List.mem_map.mpr ⟨e,inside,rfl⟩

/-- On a way that avoids pruned nodes, either everything before the end was spliced out or a
selector that is left reads the end. -/
theorem Residue.read_by (residue : Residue schemas graph targets lowered pruned now nodes)
    {v : InputValue} {link : Link} (path : Leads schemas graph v (.link link))
    (held : link.nodeId ∈ nodes.keys)
    (avoids : ∀ between : Link, Leads schemas graph v (.link between) → between.nodeId ∉ pruned) :
    (∃ last, now v = .link last ∧ last.nodeId = link.nodeId) ∨ link.nodeId ∈ referenced nodes := by
  induction path using ReflTransGen.head_induction_on with
  | refl =>
    refine .inl ⟨link,residue.kept _ fun link' u same step => ?_,rfl⟩
    obtain rfl := InputValue.link.inj same
    exact (residue.key.mp held).2.1
  | head step rest ih =>
    rename_i v u
    rcases ih fun between path => avoids between (.head step path) with ⟨last,reached,same⟩ | read
    · obtain ⟨first,rfl,fixed,branch⟩ := step.linked
      by_cases spliced : first.nodeId ∈ lowered
      · exact .inl ⟨last,(residue.passed first u spliced step).trans reached,same⟩
      · obtain ⟨node,key,found,inside⟩ := branch.read
        have read := residue.mem_referenced found spliced (avoids first .refl) inside reached
        exact .inr (same ▸ read)
    · exact .inr read

theorem Residue.unread_of_unreferenced
    (residue : Residue schemas graph targets lowered pruned now nodes) {n m : String}
    {node : AnyNode} (held : n ∈ nodes.keys) (free : n ∉ referenced nodes) (found : graph.get? m = some node)
    (unlowered : m ∉ lowered) (unpruned : m ∉ pruned) {e : String × InputValue}
    (inside : e ∈ inputsOf node) {link : Link} (path : Leads schemas graph e.2 (.link link)) :
    link.nodeId ≠ n := by
  rintro rfl
  rcases residue.read_by path held (fun between way =>
    residue.unread m node found unlowered unpruned e inside between way) with
    ⟨last,reached,same⟩ | read
  · exact free (same ▸ residue.mem_referenced found unlowered unpruned inside reached)
  · exact free read

theorem Residue.sweep (residue : Residue schemas graph targets lowered pruned now nodes)
    {candidates : List String} (inactive : ∀ n ∈ candidates, Inactive schemas graph n) :
    Residue schemas graph targets lowered (pruned ∪ {n | n ∈ removable nodes candidates targets})
      now (nodes.filterKeys (· ∉ removable nodes candidates targets)) := by
  have gone {n : String} (inside : n ∈ removable nodes candidates targets) :
      n ∈ nodes.keys ∧ n ∈ candidates ∧ n ∉ targets ∧ n ∉ referenced nodes := by
    obtain ⟨key,test⟩ := List.mem_filter.mp inside
    exact ⟨key,of_decide_eq_true test⟩
  refine ⟨fun n node' => ?_,residue.fixed,residue.leads,residue.stopped,residue.passed,residue.kept,
    fun n node found unlowered unpruned e inside link path => ?_,fun n inside free => ?_⟩
  · rw [Dict.get?_filterKeys]
    have old := residue.left n node'
    by_cases removed : n ∈ removable nodes candidates targets
    · simp [removed]
    · simpa [removed] using old
  · rintro (old | removed)
    · have before : n ∉ pruned := fun bad => unpruned (.inl bad)
      exact residue.unread n node found unlowered before e inside link path old
    · obtain ⟨key,-,-,unreferenced⟩ := gone removed
      exact residue.unread_of_unreferenced key unreferenced found unlowered
        (fun bad => unpruned (.inl bad)) inside path rfl
  · rcases inside with old | removed
    · exact residue.unneeded n old free
    · obtain ⟨key,candidate,untargeted,unreferenced⟩ := gone removed
      refine .intro n (inactive n candidate) untargeted ?_
      intro m node found plain e inside link same path
      by_cases before : m ∈ pruned
      · exact residue.unneeded m before plain
      · have unlowered : m ∉ lowered := fun bad => plain (residue.fixed m bad)
        exact absurd same (residue.unread_of_unreferenced key unreferenced found unlowered before
          inside path)

theorem Course.sweep {candidates runtime : List String}
    (course : Course schemas graph targets lowered pruned now ⟨nodes,candidates,runtime⟩) :
    Course schemas graph targets lowered
      (pruned ∪ {n | n ∈ removable nodes candidates targets}) now
      ⟨nodes.filterKeys (· ∉ removable nodes candidates targets),candidates,runtime⟩ := by
  have fewer {v : InputValue} (old : Enlisted ⟨nodes,candidates,runtime⟩ v) :
      Enlisted ⟨nodes.filterKeys (· ∉ removable nodes candidates targets),candidates,runtime⟩
        v := by
    intro link same held
    obtain ⟨node,found⟩ := (Dict.mem_keys_iff _ _).mp held
    rw [Dict.get?_filterKeys] at found
    split at found
    · exact old link same (keys_of_get? found)
    · cases found
  refine ⟨course.toResidue.sweep course.inactive,course.inactive,
    fun n inside v branch => fewer (course.others n inside v branch),
    fun n node found unlowered here e inside => fewer ?_,course.runtime⟩
  refine course.enlisted n node found unlowered ?_ e inside
  rcases here with candidate | old | removed
  · exact .inl candidate
  · exact .inr old
  · exact .inl (of_decide_eq_true (List.mem_filter.mp removed).2).1

theorem Course.prune {candidates runtime : List String}
    (course : Course schemas graph targets lowered pruned now ⟨nodes,candidates,runtime⟩) :
    ∃ pruned', Course schemas graph targets lowered pruned' now
      ⟨prune nodes candidates targets,candidates,runtime⟩ := by
  refine prune_induction (fun left => ∃ pruned', Course schemas graph targets lowered pruned' now
    ⟨left,candidates,runtime⟩) ?_ nodes ⟨pruned,course⟩
  rintro left ⟨pruned',course⟩
  exact ⟨_,course.sweep⟩

theorem splice_cases (output : Link) (value v : InputValue) :
    v = .link output ∧ splice output value v = value ∨
      v ≠ .link output ∧ splice output value v = v := by
  unfold splice
  cases v with
  | link link =>
    by_cases same : link = output <;> simp [same]
  | typed typed => simp
  | literal value => simp

theorem mem_inactiveCone {nodes : Nodes} {v : Option InputValue} {n : String} :
    n ∈ inactiveCone nodes v ↔ ∃ link, v = some (.link link) ∧ link.nodeId ∈ nodes.keys ∧
      ReflTransGen (Digraph.InnerEdge (next nodes) nodes.keys) link.nodeId n := by
  cases v with
  | none => simp [inactiveCone]
  | some v =>
    cases v with
    | link link => simp [inactiveCone,cone,Digraph.mem_collect]
    | typed typed => simp [inactiveCone]
    | literal value => simp [inactiveCone]

section
variable {n : String} {node : AnyNode} {selector : Selector} {a : InputValue}

def spliced (now : InputValue → InputValue) (n : String) (selector : Selector) (a : InputValue)
    (v : InputValue) : InputValue :=
  splice ⟨n,selector.output⟩ (now a) (now v)

theorem passes_iff (declared : SelectorAt schemas graph n node selector)
    (branch : Branch schemas graph true n a) {link : Link} {u : InputValue}
    (same : link.nodeId = n) :
    Passes schemas graph (.link link) u ↔ link = ⟨n,selector.output⟩ ∧ u = a := by
  constructor
  · intro step
    obtain ⟨m,node',selector',declared',eq,branch'⟩ := step
    obtain rfl := InputValue.link.inj eq
    obtain rfl : m = n := same
    obtain ⟨rfl,rfl⟩ := declared.unique declared'
    exact ⟨rfl,branch'.unique branch⟩
  · rintro ⟨rfl,rfl⟩
    exact ⟨n,node,selector,declared,rfl,branch⟩

theorem Residue.spliced_leads (residue : Residue schemas graph targets lowered pruned now nodes)
    (declared : SelectorAt schemas graph n node selector)
    (branch : Branch schemas graph true n a) (v : InputValue) :
    Leads schemas graph v (spliced now n selector a v) := by
  have path := residue.leads v
  rcases splice_cases ⟨n,selector.output⟩ (now a) (now v) with ⟨here,eq⟩ | ⟨-,eq⟩
  · rw [spliced,eq]
    rw [here] at path
    exact (path.tail ((passes_iff declared branch rfl).mpr ⟨rfl,rfl⟩)).trans (residue.leads a)
  · rw [spliced,eq]
    exact path

theorem Residue.spliced_stopped (settled : Settled schemas graph targets)
    (residue : Residue schemas graph targets lowered pruned now nodes)
    (declared : SelectorAt schemas graph n node selector) (branch : Branch schemas graph true n a)
    (v : InputValue) (link : Link) (u : InputValue)
    (same : spliced now n selector a v = .link link) (step : Passes schemas graph (.link link) u) :
    link.nodeId ∉ insert n lowered := by
  rcases splice_cases ⟨n,selector.output⟩ (now a) (now v) with ⟨-,eq⟩ | ⟨other,eq⟩
  · have value : now a = .link link := eq.symm.trans same
    rintro (here | old)
    · exact settled.apart branch (value ▸ residue.leads a) here
    · exact residue.stopped a link u value step old
  · have value : now v = .link link := eq.symm.trans same
    rintro (here | old)
    · obtain ⟨rfl,-⟩ := (passes_iff declared branch here).mp step
      exact other value
    · exact residue.stopped v link u value step old

theorem Residue.spliced_passed
    (residue : Residue schemas graph targets lowered pruned now nodes)
    (declared : SelectorAt schemas graph n node selector) (branch : Branch schemas graph true n a)
    (fresh : n ∉ lowered) (link : Link) (u : InputValue) (inside : link.nodeId ∈ insert n lowered)
    (step : Passes schemas graph (.link link) u) :
    spliced now n selector a (.link link) = spliced now n selector a u := by
  rcases inside with here | old
  · obtain ⟨rfl,rfl⟩ := (passes_iff declared branch here).mp step
    have own : now (.link ⟨n,selector.output⟩) = .link ⟨n,selector.output⟩ := by
      refine residue.kept _ fun link' u same step => ?_
      obtain rfl := InputValue.link.inj same
      exact fresh
    have value : splice ⟨n,selector.output⟩ (now u) (now u) = now u := by
      rcases splice_cases ⟨n,selector.output⟩ (now u) (now u) with ⟨-,eq⟩ | ⟨-,eq⟩ <;> exact eq
    rw [spliced,spliced,own,value]
    simp [splice]
  · rw [spliced,spliced,residue.passed link u old step]

theorem Residue.spliced_kept (residue : Residue schemas graph targets lowered pruned now nodes)
    (declared : SelectorAt schemas graph n node selector) (branch : Branch schemas graph true n a)
    (v : InputValue) (unpassed : ∀ link u, v = .link link → Passes schemas graph (.link link) u →
      link.nodeId ∉ insert n lowered) : spliced now n selector a v = v := by
  have old := residue.kept v fun link u same step bad => unpassed link u same step (.inr bad)
  rcases splice_cases ⟨n,selector.output⟩ (now a) v with ⟨here,-⟩ | ⟨-,eq⟩
  · refine absurd (Set.mem_insert n lowered) (unpassed _ a here ?_)
    exact (passes_iff declared branch rfl).mpr ⟨rfl,rfl⟩
  · rw [spliced,old,eq]

theorem Residue.spliced_left (residue : Residue schemas graph targets lowered pruned now nodes)
    (m : String) (node' : AnyNode) :
    (spliceOut nodes n selector (now a)).get? m = some node' ↔ ∃ node, graph.get? m = some node ∧
      m ∉ insert n lowered ∧ m ∉ pruned ∧ node' = mapInputs (spliced now n selector a) node := by
  rw [get?_spliceOut]
  by_cases same : m = n
  · simp [same]
  · rw [if_neg same,Option.map_eq_some_iff]
    constructor
    · rintro ⟨between,held,rfl⟩
      obtain ⟨node,found,unlowered,unpruned,rfl⟩ := (residue.left m between).mp held
      refine ⟨node,found,?_,unpruned,mapInputs_mapInputs _ _ node⟩
      rintro (bad | bad)
      · exact same bad
      · exact unlowered bad
    · rintro ⟨node,found,unlowered,unpruned,rfl⟩
      refine ⟨_,(residue.left m _).mpr ⟨node,found,fun bad => unlowered (.inr bad),unpruned,rfl⟩,?_⟩
      exact mapInputs_mapInputs _ _ node

theorem Residue.lower (settled : Settled schemas graph targets)
    (residue : Residue schemas graph targets lowered pruned now nodes)
    (declared : SelectorAt schemas graph n node selector) (branch : Branch schemas graph true n a)
    (fresh : n ∉ lowered) :
    Residue schemas graph targets (insert n lowered) pruned (spliced now n selector a)
      (spliceOut nodes n selector (now a)) := by
  refine ⟨residue.spliced_left,fun m inside => ?_,residue.spliced_leads declared branch,
    residue.spliced_stopped settled declared branch,residue.spliced_passed declared branch fresh,
    residue.spliced_kept declared branch,
    fun m node found unlowered unpruned e inside link path => ?_,residue.unneeded⟩
  · rcases inside with rfl | old
    · exact branch.fixed
    · exact residue.fixed m old
  · exact residue.unread m node found (fun bad => unlowered (.inr bad)) unpruned e inside link path

def loweredTo (w : Worklist) (now : InputValue → InputValue) (n : String) (selector : Selector)
    (a : InputValue) (i : Option InputValue) : Worklist :=
  ⟨spliceOut w.nodes n selector (now a),
    inactiveCone (spliceOut w.nodes n selector (now a)) (i.map now) ++ w.candidates,
    w.runtimeSelectors⟩

variable {i : Option InputValue}

theorem mem_keys_spliceOut {m : String} {value : InputValue} :
    m ∈ (spliceOut nodes n selector value).keys ↔ m ≠ n ∧ m ∈ nodes.keys := by
  rw [Dict.mem_keys_iff,Dict.mem_keys_iff]
  simp only [get?_spliceOut]
  by_cases same : m = n
  · simp [same]
  · simp [same]

theorem Course.spliced_enlisted (course : Course schemas graph targets lowered pruned now w)
    (held : graph.get? n = some node) (fresh : n ∉ lowered) (unpruned : n ∉ pruned)
    (branch : Branch schemas graph true n a) {v : InputValue} (old : Enlisted w (now v)) :
    Enlisted (loweredTo w now n selector a i) (spliced now n selector a v) := by
  have still {u : InputValue} (before : Enlisted w u) :
      Enlisted (loweredTo w now n selector a i) u := by
    intro link same left
    exact List.mem_append_right _ (before link same (mem_keys_spliceOut.mp left).2)
  rcases splice_cases ⟨n,selector.output⟩ (now a) (now v) with ⟨here,eq⟩ | ⟨-,eq⟩
  · rw [spliced,eq]
    have key : n ∈ w.nodes.keys := course.key.mpr ⟨keys_of_get? held,fresh,unpruned⟩
    have candidate : n ∈ w.candidates := old _ here key
    obtain ⟨node',key',found,inside⟩ := branch.read
    exact still (course.enlisted n node' found fresh (.inl candidate) _ inside)
  · rw [spliced,eq]
    exact still old

theorem Residue.reads_of_edge (residue : Residue schemas graph targets lowered pruned now nodes)
    {m k : String} (edge : Digraph.InnerEdge (next nodes) nodes.keys m k) :
    ReflTransGen (Reads graph) m k := by
  obtain ⟨inside,left⟩ := edge
  unfold next at inside
  split at inside
  · rename_i node' held
    obtain ⟨node,found,-,-,rfl⟩ := (residue.left m node').mp held
    obtain ⟨e',read',source⟩ := mem_sources.mp inside
    rw [inputsOf_mapInputs] at read'
    obtain ⟨e,read,rfl⟩ := List.mem_map.mp read'
    have path := residue.leads e.2
    generalize now e.2 = reached at source path
    cases reached with
    | link last =>
      obtain rfl := Option.some.inj source
      obtain ⟨first,same⟩ := path.linked
      rw [same] at path
      obtain ⟨known,way⟩ := path.reads (residue.key.mp left).1
      exact .head ⟨known,node,found,mem_sources.mpr ⟨e,read,by rw [same]; rfl⟩⟩ way
    | typed typed => cases source
    | literal value => cases source
  · cases inside

theorem Residue.inactive_of_cone (residue : Residue schemas graph targets lowered pruned now nodes)
    {z : String} {v : InputValue} (branch : Branch schemas graph false z v) {link : Link}
    (value : now v = .link link) (left : link.nodeId ∈ nodes.keys) {m : String}
    (reached : ReflTransGen (Digraph.InnerEdge (next nodes) nodes.keys) link.nodeId m) :
    Inactive schemas graph m := by
  have path := value ▸ residue.leads v
  obtain ⟨first,rfl⟩ := path.linked
  obtain ⟨known,way⟩ := path.reads (residue.key.mp left).1
  refine ⟨z,first,branch,known,way.trans ?_⟩
  induction reached with
  | refl => exact .refl
  | tail _ edge ih => exact ih.trans (residue.reads_of_edge edge)

theorem Course.lower (settled : Settled schemas graph targets)
    (course : Course schemas graph targets lowered pruned now w)
    (declared : SelectorAt schemas graph n node selector) (branch : Branch schemas graph true n a)
    (fresh : n ∉ lowered) (unpruned : n ∉ pruned)
    (other : ∀ v, i = some v ↔ Branch schemas graph false n v) :
    Course schemas graph targets (insert n lowered) pruned (spliced now n selector a)
      (loweredTo w now n selector a i) := by
  have residue : Residue schemas graph targets (insert n lowered) pruned (spliced now n selector a)
      (loweredTo w now n selector a i).nodes :=
    course.toResidue.lower settled declared branch fresh
  have lift {v : InputValue} (old : Enlisted w (now v)) :
      Enlisted (loweredTo w now n selector a i) (spliced now n selector a v) :=
    course.spliced_enlisted declared.1 fresh unpruned branch old
  have spared {v : InputValue} (inactive : Branch schemas graph false n v) :
      spliced now n selector a v = now v := by
    rcases splice_cases ⟨n,selector.output⟩ (now a) (now v) with ⟨here,-⟩ | ⟨-,eq⟩
    · exact absurd rfl (settled.apart inactive (here ▸ course.leads v))
    · exact eq
  refine ⟨residue,fun m inside => ?_,fun m inside v inactive => ?_,
    fun m node' found unlowered here e inside => ?_,course.runtime⟩
  · rcases List.mem_append.mp inside with new | old
    · obtain ⟨link,same,left,reached⟩ := mem_inactiveCone.mp new
      obtain ⟨v,rfl,value⟩ := Option.map_eq_some_iff.mp same
      have inactive := (other v).mp rfl
      exact residue.inactive_of_cone inactive ((spared inactive).trans value) left reached
    · exact course.inactive m old
  · rcases inside with rfl | old
    · rw [spared inactive]
      intro link same left
      refine List.mem_append_left _ (mem_inactiveCone.mpr ⟨link,?_,left,.refl⟩)
      rw [(other v).mpr inactive,Option.map_some,same]
    · exact lift (course.others m old v inactive)
  · have before : m ∉ lowered := fun bad => unlowered (.inr bad)
    rcases here with candidate | gone
    · rcases List.mem_append.mp candidate with new | old
      · intro link same left
        obtain ⟨first,value,known,reached⟩ := mem_inactiveCone.mp new
        refine List.mem_append_left _ (mem_inactiveCone.mpr
          ⟨first,value,known,reached.tail ⟨?_,left⟩⟩)
        have here : m ∈ (loweredTo w now n selector a i).nodes.keys := by
          rcases ReflTransGen.cases_tail reached with rfl | ⟨k,-,edge⟩
          · exact known
          · exact edge.2
        have held := (residue.left m _).mpr
          ⟨node',found,unlowered,(residue.key.mp here).2.2,rfl⟩
        have unfolded : next (loweredTo w now n selector a i).nodes m =
            sources (mapInputs (spliced now n selector a) node') := by
          rw [next,held]
        refine unfolded ▸ mem_sources.mpr ⟨(e.1,spliced now n selector a e.2),?_,by rw [same]; rfl⟩
        rw [inputsOf_mapInputs]
        exact List.mem_map.mpr ⟨e,inside,rfl⟩
      · exact lift (course.enlisted m node' found before (.inl old) e inside)
    · exact lift (course.enlisted m node' found before (.inr gone) e inside)

end

end

end Dinkster.Lowering
