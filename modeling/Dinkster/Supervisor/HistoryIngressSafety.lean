import Dinkster.Lib.Fallible
import Dinkster.Server.HistoryPagingSafety
import Dinkster.Supervisor.HistoryIngress
import Mathlib

/-! Following the cursors of the fleet's history: each page is the keyset page of all members'
rows, so the pages hold every row once, newest first, and end. -/
namespace Dinkster.History
open Keyset

variable {Time Facts : Type} [LinearOrder Time] {py : Python Time}

theorem before_behind (after : Option (Time × String)) (rows : List (Row Time Facts)) :
    rows.filter (before after) = behind Row.key (after.map toLex) rows := rfl

theorem keep_take {after : Option (Time × String)} {wanted : Nat} {records : List (Row Time Facts)}
    (short : records.length < wanted) (items : List (Row Time Facts)) :
    keep after wanted records items =
      (records ++ behind Row.key (after.map toLex) items).take wanted := by
  rw [← before_behind]
  induction items generalizing records with
  | nil => simp [keep,List.take_of_length_le short.le]
  | cons item rest ih =>
    rw [keep]
    split
    · rename_i passed
      rw [List.filter_cons_of_pos passed,List.append_cons records item (rest.filter _)]
      split
      · rename_i full
        rw [List.take_append_of_le_length full.ge,List.take_of_length_le full.le]
      · rename_i room
        have grown : (records ++ [item]).length = records.length + 1 := by simp
        exact ih (by omega)
    · rename_i passed
      rw [List.filter_cons_of_neg passed]
      exact ih short

omit [LinearOrder Time] in
theorem validRows_some (rows : List (Row Time Facts)) :
    validRows (some (rows.map some)) = some rows := by
  rw [validRows,Option.bind_some,List.mapM_map]
  induction rows with
  | nil => rfl
  | cons row rows ih => simp_all

theorem answer_page {Columns : Type} (store : HistoryStore Time Columns) {params : Params}
    {scope : String} {wanted : Nat} {upstream : Option String}
    {position : Option (Time × String)} (inScope : historyScope py params.scope = .ok scope)
    (some_ : 0 < wanted)
    (decoded : requestCursor py (params.filter scope) upstream = .ok position) :
    let p := wirePage py (params.filter scope) (page Row.key (store.rows (params.filter scope))
      (position.map toLex) (min 200 wanted))
    store.answer py (memberParams params wanted upstream) =
      .page (some (p.records.map some)) (p.cursor.map some) := by
  have clamped : clampLimit (memberParams params wanted upstream).limit = .ok (min 200 wanted) := by
    simp only [memberParams,clampLimit]
    congr 1
    omega
  have answered := @handleHistoryList_page _ _ py _ store (memberParams params wanted upstream)
    _ _ _ inScope clamped decoded
  rw [HistoryStore.answer,answered]
  rfl

omit [LinearOrder Time] in
theorem requestCursor_encode (f : Filter) (after : Time × String) :
    requestCursor py f (some (encodeCursor py f.bound after)) = .ok (some after) := by
  have kept : (some (encodeCursor py f.bound after)).filter (· ≠ "") =
      some (encodeCursor py f.bound after) :=
    Option.filter_some_pos (by simpa using encodeCursor_nonempty f after)
  rw [requestCursor,kept]
  simp only [decodeCursor_encode py (bound_distinct f)]
  rfl

/-- Where the loop over a member's pages stands: what it kept is what passes of the rows it has
seen, and the cursor is behind these. -/
structure Stands (py : Python Time) (f : Filter) (rows : List (Row Time Facts))
    (after : Option (Time × String)) (wanted : Nat) (r : Reading Time Facts)
    (position : Option (Time × String)) : Prop where
  upstream : r.upstream = position.map (encodeCursor py f.bound)
  seen : (r.records ++ behind Row.key (after.map toLex)
    (behind Row.key (position.map toLex) rows)).take wanted =
      (behind Row.key (after.map toLex) rows).take wanted

theorem read_member {Columns : Type} (store : HistoryStore Time Columns) {params : Params}
    {scope : String} (inScope : historyScope py params.scope = .ok scope)
    {after : Option (Time × String)} {wanted : Nat} (some_ : 0 < wanted) (patience : Nat)
    {r : Reading Time (HistoryRecord Time Columns)} {position : Option (Time × String)}
    (stands : Stands py (params.filter scope) (store.rows (params.filter scope)) after wanted r
      position)
    (bounded : r.records.length ≤ wanted)
    (enough : (behind Row.key (position.map toLex)
      (store.rows (params.filter scope))).length < patience) :
    historyMemberPage (store.answer py) params after wanted patience r =
      some (some ((behind Row.key (after.map toLex)
        (store.rows (params.filter scope))).take wanted)) := by
  induction patience generalizing r position with
  | zero => omega
  | succ patience ih =>
    rw [historyMemberPage]
    split
    · rename_i short
      have descends := rows_descend store (params.filter scope)
      have decoded : requestCursor py (params.filter scope) r.upstream = .ok position := by
        rw [stands.upstream]
        cases position with
        | none => rfl
        | some position => exact requestCursor_encode _ position
      have answered := answer_page store inScope some_ decoded
      generalize taken : page Row.key (store.rows (params.filter scope)) (position.map toLex)
        (min 200 wanted) = cut at answered
      obtain ⟨items,next⟩ := cut
      simp only [wirePage] at answered
      unfold readPage
      rw [answered]
      simp only [validRows_some]
      cases next with
      | none =>
        have rest := page_ends taken (by omega)
        have seen := stands.seen
        rw [rest] at seen
        simp only [Option.map_none]
        rw [keep_take short,seen]
      | some next =>
        obtain ⟨some_items,_,below,rest⟩ := page_continues descends taken
        have advances : ¬ r.upstream = some (encodeCursor py (params.filter scope).bound
            (ofLex next)) := by
          intro same
          rw [stands.upstream] at same
          obtain ⟨last,rfl,equal⟩ := Option.map_eq_some_iff.mp same
          obtain rfl := encodeCursor_injective (params.filter scope) equal
          exact absurd (below _ rfl) (lt_irrefl _)
        simp only [Option.map_some,if_neg advances]
        refine @ih _ (some (ofLex next)) ⟨rfl,?_⟩ ?_ ?_
        · have seen := stands.seen
          rw [rest,behind_append,← List.append_assoc] at seen
          rw [keep_take short,take_append_take]
          exact seen
        · rw [keep_take short]
          exact List.length_take_le ..
        · have length := congrArg List.length rest
          rw [List.length_append] at length
          have positive := List.length_pos_iff.mpr some_items
          have here : (some (ofLex next)).map toLex = some next := rfl
          rw [here]
          omega
    · rename_i full
      have seen := stands.seen
      have length : r.records.length = wanted := by omega
      rw [List.take_append_of_le_length length.ge,List.take_of_length_le length.le] at seen
      rw [seen]

/-- An engine that answers from its history, and how many answers its time allows. -/
structure Engine (Time Columns : Type) where
  ownerId : String
  store : HistoryStore Time Columns
  patience : Nat

section Fleet

variable {Columns : Type} {engines : List (Engine Time Columns)} {f : Filter}

def Engine.member (py : Python Time) (e : Engine Time Columns) :
    IngressMember Time (HistoryRecord Time Columns) :=
  ⟨e.ownerId,"ready",e.store.answer py,e.patience⟩

def fleet (engines : List (Engine Time Columns)) (f : Filter) :
    List (Row Time (HistoryRecord Time Columns)) :=
  descending Row.key (engines.flatMap fun e => e.store.rows f)

/-- No two records share a reference. -/
def Distinct (engines : List (Engine Time Columns)) : Prop :=
  (engines.flatMap fun e => e.store.records.map (·.runId)).Nodup

theorem rows_refs (store : HistoryStore Time Columns) (f : Filter) :
    (store.rows f).map (·.jobRef) = (store.listing f).map (·.runId) := by
  rw [HistoryStore.rows,List.map_map]
  rfl

theorem fleet_refs (distinct : Distinct engines) :
    ((engines.flatMap fun e => e.store.rows f).map (·.jobRef)).Nodup := by
  have part (e : Engine Time Columns) : ∀ ref ∈ (e.store.rows f).map (·.jobRef),
      ref ∈ e.store.records.map (·.runId) := by
    intro ref inside
    rw [rows_refs] at inside
    obtain ⟨r,member,rfl⟩ := List.mem_map.mp inside
    have matching := (descending_perm _).mem_iff.mp member
    exact List.mem_map.mpr ⟨r,(List.mem_filter.mp matching).1,rfl⟩
  obtain ⟨_,apart⟩ := List.nodup_flatMap.mp distinct
  rw [List.map_flatMap,List.nodup_flatMap]
  constructor
  · intro e _
    rw [rows_refs,HistoryStore.listing,((descending_perm _).map _).nodup_iff]
    exact e.store.distinct.sublist (List.filter_sublist.map _)
  · exact apart.imp fun separate ref here there => separate (part _ ref here) (part _ ref there)

theorem fleet_descends (distinct : Distinct engines) : Descends Row.key (fleet engines f) := by
  apply descends_descending
  have refs := fleet_refs (f := f) distinct
  rw [List.Nodup,List.pairwise_map] at refs ⊢
  exact refs.imp fun differ same => differ (congrArg (fun k => (ofLex k).2) same)

theorem mem_fleet {row : Row Time (HistoryRecord Time Columns)} :
    row ∈ fleet engines f ↔ ∃ e ∈ engines, row ∈ e.store.rows f := by
  rw [fleet,(descending_perm _).mem_iff,List.mem_flatMap]

theorem behind_engine (distinct : Distinct engines) {e : Engine Time Columns} (member : e ∈ engines)
    (after : Option (Time ×ₗ String)) [DecidablePred (· ∈ e.store.rows f)] :
    behind Row.key after (e.store.rows f) =
      (behind Row.key after (fleet engines f)).filter (· ∈ e.store.rows f) := by
  have left := (rows_descend e.store f).behind after
  have right : Descends Row.key ((behind Row.key after (fleet engines f)).filter
      (· ∈ e.store.rows f)) :=
    ((fleet_descends distinct).behind after).sublist List.filter_sublist
  refine eq_of_perm left right ?_
  rw [List.perm_ext_iff_of_nodup left.nodup right.nodup]
  intro row
  rw [List.mem_filter,mem_behind,mem_behind,mem_fleet,decide_eq_true_eq]
  constructor
  · rintro ⟨inside,passed⟩
    exact ⟨⟨⟨e,member,inside⟩,passed⟩,inside⟩
  · rintro ⟨⟨_,passed⟩,inside⟩
    exact ⟨inside,passed⟩

theorem gathered_tops (distinct : Distinct engines) (after : Option (Time ×ₗ String)) (n : Nat) :
    let rows := engines.flatMap fun e => (behind Row.key after (e.store.rows f)).take n
    (descending Row.key rows).take n = (behind Row.key after (fleet engines f)).take n ∧
      min n rows.length = min n (behind Row.key after (fleet engines f)).length := by
  classical
  have whole : (engines.flatMap fun e => e.store.rows f).Nodup := (fleet_refs distinct).of_map
  obtain ⟨each,apart⟩ := List.nodup_flatMap.mp whole
  have part (e : Engine Time Columns) : ∀ row ∈ (behind Row.key after (e.store.rows f)).take n,
      row ∈ e.store.rows f ∧ ∀ k ∈ after, row.key < k :=
    fun row inside => mem_behind.mp (List.mem_of_mem_take inside)
  refine tops ((fleet_descends distinct).behind after) ?_ ?_ ?_
  · rw [List.nodup_flatMap]
    constructor
    · intro e member
      exact (((rows_descend e.store f).behind after).nodup).sublist (List.take_sublist _ _)
    · exact apart.imp fun separate row here there =>
        separate (part _ row here).1 (part _ row there).1
  · intro row inside
    obtain ⟨e,member,here⟩ := List.mem_flatMap.mp inside
    obtain ⟨held,passed⟩ := part e row here
    exact mem_behind.mpr ⟨mem_fleet.mpr ⟨e,member,held⟩,passed⟩
  · intro row top
    obtain ⟨held,_⟩ := mem_behind.mp (List.mem_of_mem_take top)
    obtain ⟨e,member,here⟩ := mem_fleet.mp held
    refine List.mem_flatMap.mpr ⟨e,member,?_⟩
    rw [behind_engine distinct member]
    refine mem_take_filter ?_ top
    exact decide_eq_true here

theorem fetch_engine {params : Params} {scope : String} {limit : Nat}
    {after : Option (Time × String)} (inScope : historyScope py params.scope = .ok scope)
    {e : Engine Time Columns}
    (patient : (e.store.rows (params.filter scope)).length < e.patience) :
    fetch params after limit (e.member py) = .ok ((behind Row.key (after.map toLex)
      (e.store.rows (params.filter scope))).take (limit + 1)) := by
  have start : Stands py (params.filter scope) (e.store.rows (params.filter scope)) after (limit + 1)
      {} none := ⟨rfl,by simp⟩
  have read := read_member e.store inScope (by omega) e.patience start (by simp)
    (by simpa using patient)
  rw [fetch,if_neg (by simp [Engine.member])]
  simp only [Engine.member]
  rw [read]

theorem mergePage_top {limit : Nat} {records rest : List (Row Time Facts)}
    (top : (descending Row.key records).take (limit + 1) = rest.take (limit + 1))
    (length : min (limit + 1) records.length = min (limit + 1) rest.length) :
    mergePage py f limit records = ⟨rest.take limit,if limit < rest.length then
      (rest.take limit).getLast?.map fun last =>
        encodeCursor py f.bound (last.finishedAt,last.jobRef)
      else none⟩ := by
  have cut : (descending Row.key records).take limit = rest.take limit := by
    have again := congrArg (List.take limit) top
    rwa [List.take_take,List.take_take,min_eq_left (Nat.le_succ limit)] at again
  have more : limit < (descending Row.key records).length ↔ limit < rest.length := by
    rw [(descending_perm _).length_eq]
    omega
  simp only [mergePage,cut,more]

theorem history_page {params : Params} {scope : String} {limit : Nat}
    {after : Option (Time × String)} (distinct : Distinct engines)
    (inScope : historyScope py params.scope = .ok scope)
    (clamped : clampLimit params.limit = .ok limit)
    (decoded : ingressCursor py (params.filter scope) params.cursor = .ok after)
    (patient : ∀ e ∈ engines, (e.store.rows (params.filter scope)).length < e.patience) :
    history py (engines.map (·.member py)) params =
      .page (wirePage py (params.filter scope)
        (page Row.key (fleet engines (params.filter scope)) (after.map toLex) limit)) := by
  have checked : checkRequest py params = .ok (params.filter scope,limit,after) :=
    Fallible.bind_ok.mpr ⟨_,inScope,Fallible.bind_ok.mpr ⟨_,clamped,
      Fallible.bind_ok.mpr ⟨_,decoded,rfl⟩⟩⟩
  have fetched : (engines.map (·.member py)).map (fetch params after limit) =
      (engines.map fun e => (behind Row.key (after.map toLex)
        (e.store.rows (params.filter scope))).take (limit + 1)).map .ok := by
    rw [List.map_map,List.map_map]
    exact List.map_congr_left fun e member => fetch_engine inScope (patient e member)
  have none_fails (lists : List (List (Row Time (HistoryRecord Time Columns)))) :
      failures (lists.map .ok) = [] ∧ gathered (lists.map .ok) = lists.flatten := by
    constructor
    · simp [failures]
    · simp [gathered,List.flatMap_map]
  obtain ⟨clean,together⟩ := none_fails (engines.map fun e => (behind Row.key (after.map toLex)
    (e.store.rows (params.filter scope))).take (limit + 1))
  rw [history,checked]
  simp only [fetched,clean,together,ne_eq,not_true_eq_false,if_false]
  obtain ⟨top,length⟩ := gathered_tops (f := params.filter scope) distinct (after.map toLex)
    (limit + 1)
  rw [← List.flatMap_def]
  rw [mergePage_top top length,wirePage,page,apply_ite (Option.map _),Option.map_map,Option.map_none]
  rfl

/-- Asks for page after page with the cursor of the page before and the same query; nothing where
a page is refused or the cursors do not end within `fuel` pages. -/
def follow (py : Python Time) (members : List (IngressMember Time Facts)) (params : Params)
    (limits : Nat → Option (Option Int)) : Nat → Nat → Option String → Option (List (Row Time Facts))
  | 0,_,_ => none
  | fuel + 1,k,cursor =>
    match history py members { params with limit := limits k, cursor := cursor } with
    | .badRequest _ => none
    | .incomplete _ => none
    | .page p => match p.cursor with
      | none => some p.records
      | some next => (follow py members params limits fuel (k + 1) (some next)).map (p.records ++ ·)

theorem clampLimit_ok {limit : Option (Option Int)} (wellFormed : limit ≠ some none) :
    ∃ n, 0 < n ∧ clampLimit limit = .ok n := by
  cases limit with
  | none => exact ⟨50,by omega,rfl⟩
  | some limit =>
    cases limit with
    | none => exact absurd rfl wellFormed
    | some n => exact ⟨(min 200 (max 1 n)).toNat,by omega,rfl⟩

theorem follow_rest {params : Params} {scope : String} {limits : Nat → Option (Option Int)}
    (distinct : Distinct engines) (inScope : historyScope py params.scope = .ok scope)
    (wellFormed : ∀ k, limits k ≠ some none)
    (patient : ∀ e ∈ engines, (e.store.rows (params.filter scope)).length < e.patience)
    (fuel : Nat) (k : Nat) (position : Option (Time × String))
    (enough : (behind Row.key (position.map toLex)
      (fleet engines (params.filter scope))).length < fuel) :
    follow py (engines.map (·.member py)) params limits fuel k
        (position.map (encodeCursor py (params.filter scope).bound)) =
      some (behind Row.key (position.map toLex) (fleet engines (params.filter scope))) := by
  induction fuel generalizing k position with
  | zero => omega
  | succ fuel ih =>
    obtain ⟨limit,positive,clamped⟩ := clampLimit_ok (wellFormed k)
    have decoded : ingressCursor py (params.filter scope)
        (position.map (encodeCursor py (params.filter scope).bound)) = .ok position := by
      cases position with
      | none => rfl
      | some position =>
        simp only [Option.map_some,ingressCursor,decodeCursor_encode py (bound_distinct _)]
    let request : Params := { params with
      limit := limits k
      cursor := position.map (encodeCursor py (params.filter scope).bound) }
    have asked : historyScope py request.scope = .ok scope := inScope
    have bounded : clampLimit request.limit = .ok limit := clamped
    have answered := history_page distinct asked bounded decoded patient
    have same : ({ params with
        limit := limits k
        cursor := position.map (encodeCursor py (params.filter scope).bound) } : Params).filter
          scope = params.filter scope := rfl
    rw [same] at answered
    rw [follow,answered]
    generalize taken : page Row.key (fleet engines (params.filter scope)) (position.map toLex)
      limit = cut
    obtain ⟨items,next⟩ := cut
    cases next with
    | none =>
      have rest := page_ends taken positive
      rw [rest]
      rfl
    | some next =>
      obtain ⟨some_items,_,_,rest⟩ := page_continues (fleet_descends distinct) taken
      have length := congrArg List.length rest
      rw [List.length_append] at length
      have later := ih (k + 1) (some (ofLex next)) (by
        have here : (some (ofLex next)).map toLex = some next := rfl
        have some_length := List.length_pos_iff.mpr some_items
        rw [here]
        omega)
      have here : (some (ofLex next)).map toLex = some next := rfl
      rw [here] at later
      rw [rest]
      simp only [wirePage,Option.map_some]
      rw [show some (encodeCursor py (params.filter scope).bound (ofLex next)) =
        (some (ofLex next)).map (encodeCursor py (params.filter scope).bound) from rfl,later]
      rfl

end Fleet

/-- The cursors of a member strictly advance: no chain of them goes on for ever. -/
def Advances (answer : Params → Answer Time Facts) (params : Params) (wanted : Nat) : Prop :=
  ∃ advance : String → String → Prop, WellFounded advance ∧ ∀ asked next records,
    answer (memberParams params wanted (some asked)) = .page records (some (some next)) →
      advance next asked

section Ends

variable {answer : Params → Answer Time Facts} {params : Params} {after : Option (Time × String)}
  {wanted : Nat}

/-- Enough patience gets to the end of a member. -/
def Ends (answer : Params → Answer Time Facts) (params : Params) (after : Option (Time × String))
    (wanted : Nat) (r : Reading Time Facts) : Prop :=
  ∃ enough, ∀ patience, enough ≤ patience →
    (historyMemberPage answer params after wanted patience r).isSome = true

theorem readPage_next {r next : Reading Time Facts}
    (reads : readPage answer params after wanted r = some (.inr next)) :
    ∃ records cursor, next.upstream = some cursor ∧
      answer (memberParams params wanted r.upstream) = .page records (some (some cursor)) := by
  unfold readPage at reads
  split at reads
  · cases reads
  · cases reads
  · rename_i records cursor answered
    split at reads
    · cases reads
    · cases reads
    · cases reads
    · rename_i page next' _
      split at reads
      · cases reads
      · cases reads
        exact ⟨records,next',rfl,answered⟩

theorem ends_of_next {r : Reading Time Facts}
    (later : ∀ next, readPage answer params after wanted r = some (.inr next) →
      Ends answer params after wanted next) : Ends answer params after wanted r := by
  cases read : readPage answer params after wanted r with
  | none =>
    refine ⟨1,fun patience enough => ?_⟩
    obtain ⟨patience,rfl⟩ := Nat.exists_eq_add_of_le' enough
    rw [historyMemberPage,read]
    split <;> rfl
  | some outcome =>
    cases outcome with
    | inl records =>
      refine ⟨1,fun patience enough => ?_⟩
      obtain ⟨patience,rfl⟩ := Nat.exists_eq_add_of_le' enough
      rw [historyMemberPage,read]
      split <;> rfl
    | inr next =>
      obtain ⟨enough,ends⟩ := later next read
      refine ⟨enough + 1,fun patience bound => ?_⟩
      obtain ⟨patience,rfl⟩ := Nat.exists_eq_add_of_le' (Nat.le_of_add_left_le bound)
      rw [historyMemberPage,read]
      split
      · exact ends patience (by omega)
      · rfl

theorem memberPage_ends (advances : Advances answer params wanted) :
    Ends answer params after wanted {} := by
  obtain ⟨advance,founded,onward⟩ := advances
  have chained (asked : String) : ∀ r : Reading Time Facts, r.upstream = some asked →
      Ends answer params after wanted r := by
    induction asked using founded.induction with
    | _ asked ih =>
      intro r here
      refine ends_of_next fun next reads => ?_
      obtain ⟨records,cursor,there,answered⟩ := readPage_next reads
      rw [here] at answered
      exact ih cursor (onward asked cursor records answered) next there
  refine ends_of_next fun next reads => ?_
  obtain ⟨records,cursor,there,_⟩ := readPage_next reads
  exact chained cursor next there

end Ends

/-- Following the fleet's cursors returns every matching record of every engine exactly once, in
descending order, and ends; and reading a member whose cursors strictly advance ends, whatever its
pages hold. -/
theorem history_paging {Columns : Type} (py : Python Time) (engines : List (Engine Time Columns))
    (params : Params) (scope : String) (limits : Nat → Option (Option Int))
    (distinct : Distinct engines) (inScope : historyScope py params.scope = .ok scope)
    (wellFormed : ∀ k, limits k ≠ some none)
    (patient : ∀ e ∈ engines, (e.store.matching (params.filter scope)).length < e.patience) :
    (∃ rows, (∀ fuel, rows.length < fuel →
        follow py (engines.map (·.member py)) params limits fuel 0 none = some rows) ∧
      rows.Perm (engines.flatMap fun e =>
        (e.store.matching (params.filter scope)).map (·.toWire)) ∧
      Descends Row.key rows) ∧
    ∀ (answer : Params → Answer Time Facts) (asked : Params) (after : Option (Time × String))
      (wanted : Nat), Advances answer asked wanted → Ends answer asked after wanted {} := by
  refine ⟨⟨fleet engines (params.filter scope),?_,?_,fleet_descends distinct⟩,
    fun answer asked after wanted => memberPage_ends⟩
  · intro fuel enough
    have listed (e : Engine Time Columns) : (e.store.rows (params.filter scope)).length =
        (e.store.matching (params.filter scope)).length := by
      rw [HistoryStore.rows,List.length_map]
      exact (descending_perm _).length_eq
    have whole := follow_rest distinct inScope wellFormed
      (fun e member => by rw [listed e]; exact patient e member) fuel 0 none
      (by simpa using enough)
    simpa using whole
  · refine (descending_perm _).trans (List.Perm.flatMap_left _ fun e _ => ?_)
    exact (descending_perm _).map _

theorem time_starts (late : Bool) : (if late then '1' else '0').isDigit ||
    ['-','N','I'].contains (if late then '1' else '0') := by
  cases late <;> rfl

theorem time_numeric : ∀ c ∈ ['.','0'], Json.isNumberChar c := by simp [Json.isNumberChar]

theorem time_marked (late : Bool) :
    ∃ c ∈ [if late then '1' else '0','.','0'], c.isDigit = false ∧ c ≠ '-' :=
  ⟨'.',by simp,rfl,by simp⟩

def timeText (late : Bool) : Json.FloatText :=
  ⟨if late then '1' else '0',['.','0'],time_starts late,time_numeric,time_marked late⟩

theorem timeText_readable (late : Bool) : (timeText late).Readable .plain := by
  unfold Json.FloatText.Readable
  cases late <;> decide +kernel

def timeOf : Json.Value → Option Bool
  | .float t => some (decide (t.first = '1'))
  | _ => none

theorem timeOf_text (late : Bool) : timeOf (.float (timeText late)) = some late := by
  cases late <;> rfl

def strOf : Json.Value → String
  | .str s => s
  | _ => ""

theorem strOf_str (s : String) : strOf (.str s) = s := rfl

/-- Two times, written `0.0` and `1.0`. -/
def twoTimes : Python Bool where
  repr := timeText
  float := timeOf
  str := strOf
  strip s := s
  readable := timeText_readable
  float_repr := timeOf_text
  str_str := strOf_str

def run (ref : String) (late : Bool) : HistoryRecord Bool Unit := ⟨ref,"local","","done","",late,()⟩

/-- Two engines, with two runs that ended at the same time. -/
def pair : List (Engine Bool Unit) :=
  [⟨"a",⟨[run "r1" true,run "r2" false],by simp [run]⟩,3⟩,⟨"b",⟨[run "r3" true],by simp⟩,3⟩]

theorem pair_patient (f : Filter) : ∀ e ∈ pair, (e.store.matching f).length < e.patience := by
  have small : ∀ e ∈ pair, e.store.records.length < e.patience := by simp [pair]
  exact fun e member => (List.length_filter_le _ _).trans_lt (small e member)

theorem pair_paging : ∃ rows, (∀ fuel, rows.length < fuel →
    follow twoTimes (pair.map (·.member twoTimes)) { scope := some "local" }
      (fun _ => some (some 1)) fuel 0 none = some rows) ∧ Descends Row.key rows := by
  obtain ⟨⟨rows,whole,_,descends⟩,_⟩ := @history_paging Bool Unit _ Unit twoTimes pair
    { scope := some "local" } "local" (fun _ => some (some 1))
    (by simp [Distinct,pair,run]) rfl (fun _ => by simp) (pair_patient _)
  exact ⟨rows,whole,descends⟩

end Dinkster.History
