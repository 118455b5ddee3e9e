import Dinkster.Server.HistoryPaging

/-! A member's pages are the keyset pages of its matching records: cursors are read back, the
query continues behind them, and the listing descends. -/
namespace Dinkster.History
open Json Object Keyset

variable {Time Facts : Type} (py : Python Time)

private theorem bound_readable (bound : List (String × String)) :
    MembersReadable .plain (bound.map fun e => (e.1,.str e.2)) := by
  rw [membersReadable_iff]
  intro m inside
  obtain ⟨e,_,rfl⟩ := List.mem_map.mp inside
  exact trivial

private theorem payload_readable {bound : List (String × String)}
    (distinct : (bound.map (·.1)).Nodup) (after : Time × String) :
    (cursorPayload py bound after).Readable .plain := by
  refine ⟨plain_pairs (by simp),⟨plain_pairs ?_,bound_readable bound⟩,py.readable after.1,trivial,
    trivial⟩
  simpa [Function.comp_def] using distinct

theorem readCursor_encode {bound : List (String × String)} (distinct : (bound.map (·.1)).Nodup)
    (after : Time × String) : readCursor py (encodeCursor py bound after) =
      some (bound.map fun e => (e.1,.str e.2),after) := by
  have payload : loads .plain (text .spaced (cursorPayload py bound after)) = _ :=
    loads_spaced (payload_readable py distinct after)
  simp only [readCursor,encodeCursor,String.toList_ofList,Base64Url.decodeLenient_encode,
    Utf8.text?_bytes,Option.bind_eq_bind,Option.bind_some]
  rw [payload]
  simp [cursorPayload,get?_cons,py.float_repr,py.str_str]

theorem decodeCursor_encode {bound : List (String × String)}
    (distinct : (bound.map (·.1)).Nodup) (after : Time × String) :
    decodeCursor py (encodeCursor py bound after) bound = .ok after := by
  have same : boundMatches py (bound.map fun e => (e.1,.str e.2)) bound = true := by
    have back : (bound.map fun e => (e.1,Value.str e.2)).map (fun e => (e.1,py.str e.2)) = bound := by
      simp [Function.comp_def,py.str_str]
    rw [boundMatches,back,List.isPerm_iff]
  rw [decodeCursor,readCursor_encode py distinct]
  exact if_pos same

theorem bound_distinct (f : Filter) : (f.bound.map (·.1)).Nodup := by
  simp [Filter.bound]

variable {py}

theorem encodeCursor_injective (f : Filter) {after after' : Time × String}
    (same : encodeCursor py f.bound after = encodeCursor py f.bound after') : after = after' := by
  have first := decodeCursor_encode py (bound_distinct f) after
  rw [same,decodeCursor_encode py (bound_distinct f)] at first
  exact (Except.ok.inj first).symm

theorem encodeCursor_nonempty (f : Filter) (after : Time × String) :
    encodeCursor py f.bound after ≠ "" := by
  intro empty
  have read := readCursor_encode py (bound_distinct f) after
  rw [empty] at read
  cases read

/-- The records that a query selects, newest first. -/
def HistoryStore.matching (store : HistoryStore Time Facts) (f : Filter) :
    List (HistoryRecord Time Facts) :=
  store.records.filter fun r => (filterClauses f).all (· r)

variable [LinearOrder Time]

def HistoryStore.listing (store : HistoryStore Time Facts) (f : Filter) :
    List (HistoryRecord Time Facts) :=
  descending HistoryRecord.key (store.matching f)

theorem listing_descends (store : HistoryStore Time Facts) (f : Filter) :
    Descends HistoryRecord.key (store.listing f) := by
  apply descends_descending
  have keys : ((store.matching f).map (·.runId)).Nodup :=
    store.distinct.sublist (List.filter_sublist.map _)
  rw [List.Nodup,List.pairwise_map] at keys ⊢
  exact keys.imp fun differ same => differ (congrArg (fun k => (ofLex k).2) same)

private theorem afterClause_iff (after : Time × String) (r : HistoryRecord Time Facts) :
    afterClause after r = decide (r.key < toLex after) := by
  rw [Bool.eq_iff_iff]
  simp [afterClause,HistoryRecord.key,Prod.Lex.toLex_lt_toLex]

theorem query_behind (store : HistoryStore Time Facts) (f : Filter) (limit : Nat)
    (after : Option (Time × String)) : store.query f limit after =
      (behind HistoryRecord.key (after.map toLex) (store.listing f)).take (max 1 limit) := by
  have rows : (store.records.filter fun r =>
      (filterClauses f ++ after.toList.map afterClause).all (· r)) =
        behind HistoryRecord.key (after.map toLex) (store.matching f) := by
    rw [behind,HistoryStore.matching,List.filter_filter]
    refine List.filter_congr fun r _ => ?_
    rw [List.all_append,Bool.and_comm]
    cases after with
    | none => simp
    | some after => simp [afterClause_iff]
  have sorted : descending HistoryRecord.key
      (behind HistoryRecord.key (after.map toLex) (store.matching f)) =
        behind HistoryRecord.key (after.map toLex) (store.listing f) := by
    have listed : (descending HistoryRecord.key (store.matching f)).Perm (store.matching f) :=
      descending_perm _
    have whole := listing_descends store f
    refine eq_of_perm (descends_descending ?_) (whole.behind _)
      ((descending_perm _).trans (listed.symm.filter _))
    have nodup : ((store.matching f).map HistoryRecord.key).Nodup := by
      rw [← (listed.map _).nodup_iff,List.Nodup,List.pairwise_map]
      exact whole.imp fun below => below.ne'
    exact nodup.sublist (List.filter_sublist.map _)
  rw [HistoryStore.query]
  simp only [rows,sorted]

def wirePage (py : Python Time) (f : Filter) (p : List (Row Time Facts) × Option (Time ×ₗ String)) :
    Page Time Facts :=
  ⟨p.1,p.2.map fun k => encodeCursor py f.bound (ofLex k)⟩

def HistoryStore.rows (store : HistoryStore Time Facts) (f : Filter) :
    List (Row Time (HistoryRecord Time Facts)) :=
  (store.listing f).map (·.toWire)

theorem rows_descend (store : HistoryStore Time Facts) (f : Filter) :
    Descends Row.key (store.rows f) := by
  rw [HistoryStore.rows,Descends,List.pairwise_map]
  exact listing_descends store f

theorem behind_wire (after : Option (Time ×ₗ String)) (records : List (HistoryRecord Time Facts)) :
    behind Row.key after (records.map (·.toWire)) =
      (behind HistoryRecord.key after records).map (·.toWire) := by
  rw [behind,List.filter_map]
  rfl

theorem handleHistoryList_page (store : HistoryStore Time Facts) {params : Params} {scope : String}
    {limit : Nat} {after : Option (Time × String)} (inScope : historyScope py params.scope = .ok scope)
    (clamped : clampLimit params.limit = .ok limit)
    (decoded : requestCursor py (params.filter scope) params.cursor = .ok after) :
    handleHistoryList py store params = .ok (wirePage py (params.filter scope)
      (page Row.key (store.rows (params.filter scope)) (after.map toLex) limit)) := by
  unfold handleHistoryList
  rw [inScope]
  change (clampLimit params.limit >>= _) = _
  rw [clamped]
  change (requestCursor py _ params.cursor >>= _) = _
  rw [decoded]
  change Except.ok _ = _
  congr 1
  rw [query_behind,HistoryStore.rows,wirePage,page,behind_wire,pageOf]
  generalize behind HistoryRecord.key (after.map toLex) (store.listing _) = rest
  have top : (rest.take (max 1 (limit + 1))).take limit = rest.take limit := by
    rw [List.take_take]
    congr 1
    omega
  have more : limit < (rest.take (max 1 (limit + 1))).length ↔ limit < rest.length := by
    rw [List.length_take]
    omega
  rw [top,List.length_map,← List.map_take,List.getLast?_map]
  simp only [more]
  split
  · cases (rest.take limit).getLast? <;> rfl
  · rfl

end Dinkster.History
