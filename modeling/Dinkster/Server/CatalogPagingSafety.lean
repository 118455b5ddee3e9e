import Dinkster.Lib.Utf8
import Dinkster.Server.CatalogPaging

/-! Paging through a catalog: what a cursor says when it comes back, that following the cursors
walks through the selected items once, and that the binding identifies requests as the filter
does. -/
namespace Dinkster.Federated
open Canonical Fallible Json Object

variable {signer : Signer} {lib : Library}

private theorem fromUtf8_utf8 (text : List Char) : fromUtf8 (utf8 text) = some text :=
  Utf8.text?_bytes text

private theorem loads_sorted {ms : Object} (distinct : (ms.map (·.1)).Nodup)
    (plain : ∀ m ∈ ms, (∃ s, m.2 = .str s) ∨ ∃ n, m.2 = .int n) :
    loads .plain (sortedText (.obj ms)) = some (.obj (sortedBy (·.1) (sortMembers ms))) := by
  have names := (names_sorted ms).nodup_iff.mpr distinct
  have readable : (sortKeys (.obj ms)).Readable .plain := by
    refine ⟨plain_pairs names,membersReadable_iff.mpr fun m inside => ?_⟩
    have member := (mem_sortedBy (fun m : String × Value => m.1) _ m).mp inside
    rw [sortMembers_eq] at member
    obtain ⟨m,held,rfl⟩ := List.mem_map.mp member
    obtain ⟨s,text⟩ | ⟨n,number⟩ := plain m held
    · simp [text,sortKeys,Value.Readable]
    · simp [number,sortKeys,Value.Readable]
  exact loads_compact readable

private theorem payload_members (c : CursorPayload) : ∃ ms, c.value = .obj ms ∧
    ms.map (·.1) = payloadNames ∧ get? ms "v" = some (.int 1) ∧
    get? ms "p" = some (.str c.principal) ∧ get? ms "s" = some (.str c.scope) ∧
    get? ms "q" = some (.str c.query) ∧ get? ms "g" = some (.str c.generation) ∧
    get? ms "o" = some (.int c.offset) ∧ get? ms "e" = some (.int c.expires) ∧
    ∀ m ∈ ms, (∃ s, m.2 = .str s) ∨ ∃ n, m.2 = .int n := by
  refine ⟨_,rfl,rfl,?_⟩
  simp [get?_cons]

def CursorPayload.decoded (c : CursorPayload) : Decoded :=
  ⟨.str c.principal,.str c.scope,.str c.query,.str c.generation,c.offset,c.expires⟩

theorem payload_read (c : CursorPayload) :
    ((fromUtf8 c.body).bind fun text => (loads .plain text).bind decodePayload) =
      some c.decoded := by
  obtain ⟨ms,written,names,v,p,s,q,g,o,e,plain⟩ := payload_members c
  have distinct : (ms.map (·.1)).Nodup := by
    rw [names]
    simp [payloadNames]
  have listed := names_sorted ms
  rw [names] at listed
  have field (key : String) := get?_sorted distinct key
  have every : payloadNames.all (fun name =>
      ((sortedBy (·.1) (sortMembers ms)).map (·.1)).contains name) = true := by
    simp [listed.mem_iff]
  have only : (sortedBy (·.1) (sortMembers ms)).all
      (fun m => payloadNames.contains m.1) = true := by
    refine List.all_eq_true.mpr fun m inside => ?_
    exact List.contains_iff_mem.mpr (listed.mem_iff.mp (List.mem_map.mpr ⟨m,inside,rfl⟩))
  have pairs := plain
  rw [CursorPayload.body,fromUtf8_utf8,Option.bind_some,written,loads_sorted distinct plain,
    Option.bind_some,decodePayload]
  simp only [every,only,Bool.and_self,if_true,field,v,p,s,q,g,o,e,Option.map_some,sortKeys]
  simp [natural,integral,isOne,CursorPayload.decoded]

private theorem utf8_nonempty {text : List Char} (some_text : text ≠ []) : utf8 text ≠ [] := by
  intro nothing
  have read := fromUtf8_utf8 text
  have empty := fromUtf8_utf8 []
  rw [show utf8 [] = [] by simp [utf8],← nothing,read] at empty
  exact some_text (Option.some.inj empty)

theorem verified_signed {body : List UInt8} (some_body : body ≠ []) :
    verified signer (signed signer body) = some body := by
  have split : (signed signer body).toList.splitOn '.' =
      [Base64Url.encode body,Base64Url.encode (signer.hmac body)] := by
    have plain (data : List UInt8) : ∀ c ∈ Base64Url.encode data, (c == '.') = false :=
      fun c inside => beq_eq_false_iff_ne.mpr (Base64Url.encode_plain data c inside).2
    rw [signed,String.toList_ofList,List.splitOn_eq_splitOnP,
      List.splitOnP_append_cons_of_forall_mem (plain body) '.' rfl,
      List.splitOnP_eq_singleton (plain _)]
  have some_signature : signer.hmac body ≠ [] := by
    intro nothing
    have length := signer.length body
    rw [nothing] at length
    cases length
  simp only [verified,split,Base64Url.decode_encode some_body,
    Base64Url.decode_encode some_signature,Option.bind_eq_bind,Option.bind_some,if_true]

private theorem body_nonempty (c : CursorPayload) : c.body ≠ [] := by
  obtain ⟨first,rest,written,-⟩ := render_starts (l := .compact) 0 (sortKeys c.value)
  refine utf8_nonempty ?_
  rw [sortedText,text_compact 0,written]
  exact List.cons_ne_nil _ _

theorem readCursor_signed (c : CursorPayload) :
    readCursor signer (signed signer c.body) = some c.decoded := by
  have read := payload_read c
  simp only [readCursor,verified_signed (body_nonempty c),Option.bind_eq_bind,Option.bind_some]
  exact read

theorem decodeCursor_signed {c : CursorPayload} {clock : ℚ} (alive : clock < c.expires) :
    decodeCursor signer clock (some (signed signer c.body)) c.principal c.scope c.query
      c.generation = .ok c.offset := by
  simp [decodeCursor,readCursor_signed,CursorPayload.decoded,isText,not_le.mpr alive]

/-- The keyed digest cannot be forged: a cursor whose signature verifies carries a body that the
server signed. -/
def Unforged (signer : Signer) (issued : List CursorPayload) (cursor : String) : Prop :=
  ∀ body, verified signer cursor = some body → ∃ c ∈ issued, body = c.body

private theorem isText_str {text s : String} : isText text (.str s) = true ↔ s = text := by
  simp [isText]

theorem decodeCursor_accepts {issued : List CursorPayload} {cursor : String} {clock : ℚ}
    {principal scope query generation : String} {offset : Nat}
    (unforged : Unforged signer issued cursor)
    (accepted : decodeCursor signer clock (some cursor) principal scope query generation =
      .ok offset) :
    ∃ expires : Int, clock < expires ∧
      ⟨principal,scope,query,generation,offset,expires⟩ ∈ issued := by
  unfold decodeCursor at accepted
  cases read : readCursor signer cursor with
  | none => simp [read] at accepted
  | some payload =>
    obtain ⟨body,signature,rest⟩ := Option.bind_eq_some_iff.mp read
    obtain ⟨c,inside,rfl⟩ := unforged body signature
    obtain rfl : c.decoded = payload := by
      have back := payload_read c
      exact Option.some.inj (back.symm.trans rest)
    simp only [read,CursorPayload.decoded] at accepted
    split at accepted
    · cases accepted
    · rename_i alive
      split at accepted
      · cases accepted
      · rename_i binding
        split at accepted
        · cases accepted
        · rename_i current
          simp only [Bool.and_eq_true,isText_str,not_not] at binding current
          obtain ⟨⟨rfl,rfl⟩,rfl⟩ := binding
          obtain rfl := current
          obtain rfl := Except.ok.inj accepted
          exact ⟨c.expires,not_le.mp alive,inside⟩

/-- The clock of each request, as it is read for the cursor that came and for the one that goes. -/
structure Clocks where
  checked : Nat → ℚ
  issued : Nat → ℚ

/-- Every cursor comes back within its lifetime. -/
def Clocks.Alive (clocks : Clocks) : Prop :=
  ∀ k, clocks.checked (k + 1) < (truncated (clocks.issued k) + cursorTtlSeconds : Int)

/-- Asks for page after page with the cursor of the page before; nothing where a page is refused
or the cursors do not end within `fuel` pages. -/
def follow (signer : Signer) (clocks : Clocks) (limits : Nat → Nat)
    (snapshots : Nat → CatalogSnapshot) (select : CatalogSnapshot → List CandidateV1)
    (principal scope query : String) : Nat → Nat → Option String → Option (List CandidateV1)
  | 0, _, _ => none
  | fuel + 1, k, cursor =>
    match page signer (clocks.checked k) (clocks.issued k) (select (snapshots k)) cursor (limits k)
      principal scope query (snapshots k).generation with
    | .error _ => none
    | .ok (items,none) => some items
    | .ok (items,some next) =>
      (follow signer clocks limits snapshots select principal scope query fuel (k + 1)
        (some next)).map (items ++ ·)

variable {clocks : Clocks} {limits : Nat → Nat} {snapshots : Nat → CatalogSnapshot}
  {select : CatalogSnapshot → List CandidateV1} {principal scope query : String}

private theorem page_ok {checked issued : ℚ} {items : List CandidateV1} {cursor : Option String}
    {limit offset : Nat} {generation : String}
    (decoded : decodeCursor signer checked cursor principal scope query generation = .ok offset)
    (inside : offset ≤ items.length) :
    page signer checked issued items cursor limit principal scope query generation =
      .ok ((items.drop offset).take limit,
        if offset + ((items.drop offset).take limit).length < items.length then
          some (encodeCursor signer issued principal scope query generation
            (offset + ((items.drop offset).take limit).length)) else none) := by
  have fits : ¬ items.length < offset := by omega
  rw [page,decoded]
  exact if_neg fits

theorem follow_rest (alive : clocks.Alive) (positive : ∀ k, 0 < limits k)
    (same : ∀ k, select (snapshots k) = select (snapshots 0))
    (current : ∀ k, (snapshots k).generation = (snapshots 0).generation) (fuel : Nat) :
    ∀ (k offset : Nat) (cursor : Option String),
      decodeCursor signer (clocks.checked k) cursor principal scope query
        (snapshots k).generation = .ok offset →
      offset ≤ (select (snapshots 0)).length → (select (snapshots 0)).length < offset + fuel →
      follow signer clocks limits snapshots select principal scope query fuel k cursor =
        some ((select (snapshots 0)).drop offset) := by
  induction fuel with
  | zero =>
    intro k offset cursor _ inside enough
    omega
  | succ fuel ih =>
    intro k offset cursor decoded inside enough
    have taken : page signer (clocks.checked k) (clocks.issued k) (select (snapshots k)) cursor
        (limits k) principal scope query (snapshots k).generation = .ok _ :=
      page_ok decoded (same k ▸ inside)
    rw [follow,taken,same k]
    have length : (((select (snapshots 0)).drop offset).take (limits k)).length =
        min (limits k) ((select (snapshots 0)).length - offset) := by
      rw [List.length_take,List.length_drop]
    by_cases more : offset + (((select (snapshots 0)).drop offset).take (limits k)).length <
        (select (snapshots 0)).length
    · -- the page is full, and its cursor is the offset behind it
      have full : (((select (snapshots 0)).drop offset).take (limits k)).length = limits k := by
        omega
      rw [if_pos more]
      dsimp only
      rw [full] at more ⊢
      have next := ih (k + 1) (offset + limits k) (some (encodeCursor signer (clocks.issued k)
        principal scope query (snapshots k).generation (offset + limits k))) (by
          rw [current (k + 1),← current k]
          exact decodeCursor_signed (alive k)) (by omega) (by have := positive k; omega)
      rw [next,Option.map_some,← List.drop_drop]
      congr 1
      exact List.take_append_drop _ _
    · rw [if_neg more]
      have whole : ((select (snapshots 0)).drop offset).take (limits k) =
          (select (snapshots 0)).drop offset := by
        refine List.take_of_length_le ?_
        rw [List.length_drop]
        omega
      simp only [whole]

private theorem mem_sortedSet {values : List String} {s : String} :
    s ∈ sortedSet values ↔ s ∈ values := by
  rw [sortedSet,mem_sortedBy,List.mem_dedup]

private theorem boundFilter_passes {α : Type} [DecidableEq α] {complete : List α}
    {text : α → String} (injective : Function.Injective text) (all : ∀ a, a ∈ complete)
    (values : Option (List α)) (a : α) :
    (boundFilter complete text values = none → values.all (·.contains a) = true) ∧
      ∀ texts, boundFilter complete text values = some (strings texts) →
        (values.all (·.contains a) = true ↔ text a ∈ texts) := by
  cases values with
  | none => simp [boundFilter]
  | some values =>
    by_cases whole : complete ⊆ values
    · have inside : a ∈ values := whole (all a)
      simp [boundFilter,whole,inside]
    · simp only [boundFilter,Option.bind_some,whole,if_false,reduceCtorEq,false_implies,
        Option.some.injEq,true_and,Option.all_some,List.contains_iff_mem]
      intro texts same
      rw [← strings_injective same,mem_sortedSet,List.mem_map]
      constructor
      · exact fun inside => ⟨a,inside,rfl⟩
      · rintro ⟨b,inside,equal⟩
        exact injective equal ▸ inside

private theorem boundFilter_strings {α : Type} [DecidableEq α] (complete : List α)
    (text : α → String) (values : Option (List α)) :
    boundFilter complete text values = none ∨
      ∃ texts, boundFilter complete text values = some (strings texts) := by
  cases values with
  | none => exact .inl rfl
  | some values =>
    simp only [boundFilter,Option.bind_some]
    split
    · exact .inl rfl
    · exact .inr ⟨_,rfl⟩

private theorem passes_same {α : Type} [DecidableEq α] {complete : List α} {text : α → String}
    (injective : Function.Injective text) (all : ∀ a, a ∈ complete)
    {values values' : Option (List α)}
    (same : (boundFilter complete text values).map sortKeys =
      (boundFilter complete text values').map sortKeys) (a : α) :
    values.all (·.contains a) = values'.all (·.contains a) := by
  have left := boundFilter_passes injective all values a
  have right := boundFilter_passes injective all values' a
  rw [Bool.eq_iff_iff]
  obtain first | ⟨texts,first⟩ := boundFilter_strings complete text values <;>
    obtain second | ⟨texts',second⟩ := boundFilter_strings complete text values' <;>
    rw [first,second] at same <;>
    simp only [Option.map_none,Option.map_some,sortKeys_strings,reduceCtorEq,Option.some.injEq]
      at same
  · rw [left.1 first,right.1 second]
  · rw [left.2 texts first,right.2 texts' second,strings_injective same]

private theorem query_passes (query : Option String) (value : String) (values : List String) :
    ((query.map lib.casefold).all fun query =>
        (value :: values).any fun v => occursIn query (lib.casefold v)) =
      (boundQuery lib query).all fun query =>
        (value :: values).any fun v => occursIn query (lib.casefold v) := by
  cases query with
  | none => rfl
  | some query =>
    by_cases empty : lib.casefold query = ""
    · simp [boundQuery,empty,occursIn]
    · simp [boundQuery,empty,Option.filter]

def boundNames : List String := ["query","assetKind","context","availability","compatibility"]

theorem catalogFilter_bound {r r' : CatalogRequestV1}
    (same : ∀ key ∈ boundNames, ((r.bound lib).lookup key).join.map sortKeys =
      ((r'.bound lib).lookup key).join.map sortKeys) (s : CatalogSnapshot) :
    catalogFilter lib r s = catalogFilter lib r' s := by
  have query := same "query" (by simp [boundNames])
  have assetKind := same "assetKind" (by simp [boundNames])
  have context := same "context" (by simp [boundNames])
  have availability := same "availability" (by simp [boundNames])
  have compatibility := same "compatibility" (by simp [boundNames])
  simp only [CatalogRequestV1.bound,List.lookup_cons,String.reduceBEq,Option.join_some]
    at query assetKind context availability compatibility
  have query := str_option query
  have assetKind := str_option assetKind
  have kinds : r.context.map (·.assetKind) = r'.context.map (·.assetKind) := by
    cases here : r.context <;> cases there : r'.context <;>
      simp only [here,there,Option.map_none,Option.map_some,reduceCtorEq,Option.some.injEq]
        at context ⊢
    have member := member_of_sorted (by simp) (by simp) context "assetKind"
    simpa [get?_cons,sortKeys] using member
  have available := passes_same (fun _ _ equal => Availability.text_injective equal)
    (fun a => by cases a <;> simp [everyAvailability]) availability
  have compatible := passes_same (fun _ _ equal => Compatibility.text_injective equal)
    (fun a => by cases a <;> simp [everyCompatibility]) compatibility
  have contexts (kind : String) : r.context.all (·.assetKind = kind) =
      r'.context.all (·.assetKind = kind) := by
    cases here : r.context <;> cases there : r'.context <;> simp_all
  unfold catalogFilter
  refine List.filter_congr fun item _ => ?_
  simp only [catalogKeeps,assetKind,contexts,available,compatible,query_passes,query]

def Request.asCatalog : Request → CatalogRequestV1
  | .catalog r => r
  | .candidates r => ⟨none,none,none,some r.context,none,none⟩

private theorem select_asCatalog (r : Request) (s : CatalogSnapshot) :
    r.select lib s = catalogFilter lib r.asCatalog s := by
  cases r with
  | catalog r => rfl
  | candidates r =>
    refine List.filter_congr fun item _ => ?_
    simp [Request.asCatalog,catalogKeeps,eq_comm]

private theorem lookup_asCatalog (r : Request) {key : String} (named : key ∈ boundNames) :
    ((r.bound lib).lookup key).join = ((r.asCatalog.bound lib).lookup key).join := by
  cases r with
  | catalog r => rfl
  | candidates r =>
    simp only [boundNames,List.mem_cons,List.not_mem_nil,or_false] at named
    obtain rfl | rfl | rfl | rfl | rfl := named <;>
      simp [Request.bound,Request.asCatalog,CandidatesRequestV1.bound,CatalogRequestV1.bound,
        boundQuery,boundFilter,List.lookup_cons]

private theorem bound_distinct (r : Request) : ((r.bound lib).map (·.1)).Nodup := by
  cases r with
  | catalog r => simp [Request.bound,CatalogRequestV1.bound]
  | candidates r => simp [Request.bound,CandidatesRequestV1.bound]

theorem select_of_bound {r r' : Request} (same : r.boundText lib = r'.boundText lib)
    (s : CatalogSnapshot) : r.select lib s = r'.select lib s := by
  rw [select_asCatalog,select_asCatalog]
  refine catalogFilter_bound (fun key named => ?_) s
  rw [← lookup_asCatalog r named,← lookup_asCatalog r' named]
  exact present_sorted (bound_distinct r) (bound_distinct r') (sortedText_injective same) key

/-- The digest tells these two texts apart. -/
def NoCollision (lib : Library) (text text' : List Char) : Prop :=
  lib.sha256 text = lib.sha256 text' → text = text'

/-- Following the cursors of a request returns what it selects, once and in order, and ends; the
binding of a query settles what it selects; and a cursor is accepted only for the principal, scope,
binding and generation that it was issued for. -/
theorem paging (signer : Signer) (lib : Library) :
    (∀ (request : Request) (clocks : Clocks) (limits : Nat → Nat)
      (snapshots : Nat → CatalogSnapshot) (principal scope : String),
      clocks.Alive → (∀ k, 0 < limits k) →
      (∀ k, (snapshots k).generation = lib.sha256 (snapshots k).text) →
      (∀ k, (snapshots k).generation = (snapshots 0).generation) →
      (∀ k, NoCollision lib (snapshots k).text (snapshots 0).text) →
      follow signer clocks limits snapshots (request.select lib) principal scope
        (queryBinding lib request) ((request.select lib (snapshots 0)).length + 1) 0 none =
        some (request.select lib (snapshots 0))) ∧
    (∀ (r r' : Request) (s : CatalogSnapshot),
      NoCollision lib (r.boundText lib) (r'.boundText lib) →
      queryBinding lib r = queryBinding lib r' → r.select lib s = r'.select lib s) ∧
    (∀ (issued : List CursorPayload) (cursor : String) (clock : ℚ)
      (principal scope query generation : String) (offset : Nat), Unforged signer issued cursor →
      decodeCursor signer clock (some cursor) principal scope query generation = .ok offset →
      ∃ expires : Int, clock < expires ∧
        ⟨principal,scope,query,generation,offset,expires⟩ ∈ issued) := by
  refine ⟨?_,?_,?_⟩
  · intro request clocks limits snapshots principal scope alive positive digested current distinct
    have same (k : Nat) : request.select lib (snapshots k) = request.select lib (snapshots 0) := by
      have texts := distinct k (by rw [← digested,← digested,current])
      obtain ⟨items,aliases⟩ := generationInput_injective texts
      have equal : snapshots k = snapshots 0 := by
        have generation := current k
        cases here : snapshots k
        cases there : snapshots 0
        simp_all
      rw [equal]
    refine (follow_rest alive positive same current _ 0 0 none rfl (Nat.zero_le _)
      (by omega)).trans ?_
    rw [List.drop_zero]
  · intro r r' s distinct same
    exact select_of_bound (distinct same) s
  · intro issued cursor clock principal scope query generation offset unforged accepted
    exact decodeCursor_accepts unforged accepted

private def exampleSigner : Signer := ⟨fun _ => List.replicate 32 0,by simp⟩

private def exampleLibrary : Library := ⟨fun _ => true,id,String.ofList⟩

private def exampleFields : Candidate where
  logicalId := "mounted/asset/file/blake3/0"
  family := "unclassified"
  assetKind := "asset/file"
  variantId := "unclassified"
  dtype := "unclassified"
  quantization := "none"
  format := "unclassified"
  role := "asset"
  requirements := ⟨[],[],[]⟩
  digest := "blake3:0000000000000000000000000000000000000000000000000000000000000000"
  availabilityStatus := .unavailable
  availabilityReason := "no local or authorized provider materialization"
  compatibilityStatus := .compatible
  compatibilityReason := ""
  providerSources := []
  size := none
  mediaType := none
  assetRef := none

private def exampleItem : CandidateV1 := ⟨exampleFields,by decide +kernel⟩

private def exampleSnapshot : CatalogSnapshot :=
  ⟨String.ofList (sortedText (generationInput [exampleItem,exampleItem] [])),
    [exampleItem,exampleItem],[]⟩

private def exampleRequest : Request := .catalog ⟨none,some "mounted",none,none,none,none⟩

/-- The same request with a filter that names every availability. -/
private def filteredRequest : Request :=
  .catalog ⟨none,some "mounted",none,none,some everyAvailability,none⟩

private def exampleCursor : CursorPayload := ⟨"user","team","query","generation",1,300⟩

theorem paging_two_items :
    follow exampleSigner ⟨fun _ => 0,fun _ => 0⟩ (fun _ => 1) (fun _ => exampleSnapshot)
      (exampleRequest.select exampleLibrary) "user" "team"
      (queryBinding exampleLibrary exampleRequest)
      ((exampleRequest.select exampleLibrary exampleSnapshot).length + 1) 0 none =
      some (exampleRequest.select exampleLibrary exampleSnapshot) ∧
    exampleRequest.select exampleLibrary exampleSnapshot =
      filteredRequest.select exampleLibrary exampleSnapshot ∧
    ∃ expires : Int, (0 : ℚ) < expires ∧
      ⟨"user","team","query","generation",1,expires⟩ ∈ [exampleCursor] := by
  obtain ⟨walks,binds,accepts⟩ := paging exampleSigner exampleLibrary
  refine ⟨walks exampleRequest _ _ _ "user" "team" ?_ ?_ ?_ ?_ ?_,
    binds exampleRequest filteredRequest exampleSnapshot ?_ ?_,
    accepts [exampleCursor] (signed exampleSigner exampleCursor.body) 0 "user" "team" "query"
      "generation" 1 ?_ ?_⟩
  · intro k
    norm_num [truncated,cursorTtlSeconds]
  · exact fun _ => one_pos
  · exact fun _ => rfl
  · exact fun _ => rfl
  · exact fun _ _ => rfl
  · exact fun same => String.ofList_injective same
  · simp [queryBinding,Request.boundText,Request.bound,CatalogRequestV1.bound,exampleRequest,
      filteredRequest,boundFilter,everyAvailability]
  · intro body signature
    have written : verified exampleSigner (signed exampleSigner exampleCursor.body) =
        some exampleCursor.body := verified_signed (body_nonempty _)
    exact ⟨exampleCursor,List.mem_cons_self,Option.some.inj (signature.symm.trans written)⟩
  · exact decodeCursor_signed (by norm_num [exampleCursor])

end Dinkster.Federated
