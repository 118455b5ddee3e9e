import Dinkster.Lib.Canonical
import Dinkster.Lib.Dict
import Dinkster.Lib.Fallible
import Mathlib.Data.Prod.Lex

/-! The budgeted blob store: what is stored, who pins it and how a store over its budget is trimmed
by recency. A blob whose file cannot be examined is not counted, and one whose file cannot be
removed stays. -/
namespace Dinkster.Caches.Cas
open Canonical

/-- `not a canonical asset digest (expected 'blake3:<64 hex>'): {text!r}` -/
structure AssetError where
  text : String
  deriving DecidableEq

/-- `is_digest`: the pattern's end also stands before a last line break. -/
def isDigest (text : String) : Bool :=
  let body := if text.toList.getLast? = some '\n' then text.toList.dropLast else text.toList
  "blake3:".toList.isPrefixOf body && (body.drop 7).length == 64 &&
    (body.drop 7).all fun c => c.isDigit || ('a' ≤ c && c ≤ 'f')

def requireDigest (text : String) : Except AssetError String :=
  if isDigest text then .ok text else .error ⟨text⟩

/-- `_path` -/
def blobPath (root digest : String) : Except AssetError String := do
  let canonical ← requireDigest digest
  let hex := canonical.toList.drop 7
  return root ++ "/" ++ String.ofList (hex.take 2) ++ "/" ++ String.ofList hex

structure Stat (T : Type) where
  mtime : T
  size : Nat

/-- A file under a shard; `none` where `stat` fails. -/
structure Blob (T : Type) where
  path : String
  stat : Option (Stat T)

structure Shard (T : Type) where
  name : String
  isDir : Bool
  blobs : List (Blob T)

/-- The directory of a store. -/
structure Store (T : Type) where
  shards : List (Shard T)
  distinct : ((shards.flatMap (·.blobs)).map (·.path)).Nodup

variable {T Owner : Type}

/-- What is stored: the files of the shard directories. -/
def Store.blobs (store : Store T) : List (Blob T) :=
  (store.shards.filter fun shard => shard.isDir && shard.name.length == 2).flatMap (·.blobs)

def Store.unlink (store : Store T) (path : String) : Store T where
  shards := store.shards.map fun shard =>
    { shard with blobs := shard.blobs.filter (·.path ≠ path) }
  distinct := by
    refine store.distinct.sublist ?_
    rw [List.flatMap_map]
    refine List.Sublist.map _ ?_
    induction store.shards with
    | nil => exact .refl _
    | cons shard shards ih => exact List.filter_sublist.append ih

abbrev Pins (Owner : Type) := Dict Owner (List String)

/-- `any(blob_path in pinned for pinned in self._pins.values())` -/
def pinned (pins : Pins Owner) (path : String) : Bool :=
  pins.entries.any fun e => e.2.contains path

structure Entry (T : Type) where
  mtime : T
  size : Nat
  path : String

def Blob.entry (blob : Blob T) : Option (Entry T) :=
  blob.stat.map fun stat => ⟨stat.mtime,stat.size,blob.path⟩

def Store.entries (store : Store T) : List (Entry T) := store.blobs.filterMap (·.entry)

/-- The bytes that are accounted for. -/
def Store.total (store : Store T) : Int := (store.entries.map fun e => (e.size : Int)).sum

/-- The loop over the victims: the accounted size and the store when it ends. `removable` tells
which paths `os.unlink` can remove. -/
def evict (maxBytes : Int) (spared removable : String → Bool) :
    List (Entry T) → Int × Store T → Int × Store T
  | [], state => state
  | e :: rest, (total,store) =>
    if spared e.path then evict maxBytes spared removable rest (total,store)
    else if !removable e.path then evict maxBytes spared removable rest (total,store)
    else if total - e.size ≤ maxBytes then (total - e.size,store.unlink e.path)
    else evict maxBytes spared removable rest (total - e.size,store.unlink e.path)

section

variable [LinearOrder T]

/-- The order of the tuples `(st_mtime, st_size, path)`. -/
def Entry.key (e : Entry T) : T ×ₗ (Nat ×ₗ String) := toLex (e.mtime,toLex (e.size,e.path))

/-- `_trim`: the accounted size and the store after it. -/
def trim (root : String) (maxBytes : Int) (pins : Pins Owner) (removable : String → Bool)
    (protect : List String) (store : Store T) : Except AssetError (Int × Store T) := do
  let protected_ ← protect.mapM (blobPath root)
  return if store.total ≤ maxBytes then (store.total,store)
    else evict maxBytes (fun path => protected_.contains path || pinned pins path) removable
      (sortedBy (·.key) store.entries) (store.total,store)

end

theorem blobs_unlink (store : Store T) (path : String) :
    (store.unlink path).blobs = store.blobs.filter (·.path ≠ path) := by
  have each (shards : List (Shard T)) :
      ((shards.map fun shard => { shard with blobs := shard.blobs.filter (·.path ≠ path) }).filter
        fun shard => shard.isDir && shard.name.length == 2).flatMap (·.blobs) =
      ((shards.filter fun shard => shard.isDir && shard.name.length == 2).flatMap
        (·.blobs)).filter (·.path ≠ path) := by
    induction shards with
    | nil => rfl
    | cons shard shards ih =>
      rw [List.map_cons,List.filter_cons,List.filter_cons]
      split
      · rw [List.flatMap_cons,List.flatMap_cons,List.filter_append,ih]
      · exact ih
  exact each store.shards

theorem entries_unlink (store : Store T) (path : String) :
    (store.unlink path).entries = store.entries.filter (·.path ≠ path) := by
  rw [Store.entries,Store.entries,blobs_unlink,List.filter_filterMap,List.filterMap_filter]
  refine List.filterMap_congr fun blob _ => ?_
  cases stat : blob.stat with
  | none => simp [Blob.entry,stat]
  | some found =>
    by_cases same : blob.path = path
    · simp [Blob.entry,stat,same,Option.filter]
    · simp [Blob.entry,stat,same,Option.filter]

theorem paths_distinct (store : Store T) : (store.blobs.map (·.path)).Nodup := by
  refine store.distinct.sublist (List.Sublist.map _ ?_)
  unfold Store.blobs
  induction store.shards with
  | nil => exact .refl _
  | cons shard shards ih =>
    rw [List.filter_cons,List.flatMap_cons]
    split
    · exact (List.Sublist.refl _).append ih
    · exact ih.trans (List.sublist_append_right _ _)

theorem entries_distinct (store : Store T) : (store.entries.map (·.path)).Nodup := by
  refine (paths_distinct store).sublist ?_
  unfold Store.entries
  induction store.blobs with
  | nil => exact .refl _
  | cons blob blobs ih =>
    cases stat : blob.stat with
    | none => simpa [Blob.entry,stat] using ih.cons blob.path
    | some found => simpa [Blob.entry,stat] using ih.cons_cons blob.path

private theorem sum_without {entries : List (Entry T)} (distinct : (entries.map (·.path)).Nodup)
    {e : Entry T} (inside : e ∈ entries) :
    ((entries.filter (·.path ≠ e.path)).map fun e => (e.size : Int)).sum =
      (entries.map fun e => (e.size : Int)).sum - e.size := by
  induction entries with
  | nil => exact absurd inside List.not_mem_nil
  | cons first rest ih =>
    obtain ⟨fresh,others⟩ := List.nodup_cons.mp distinct
    rcases List.mem_cons.mp inside with rfl | behind
    · have kept : rest.filter (·.path ≠ e.path) = rest := by
        refine List.filter_eq_self.mpr fun other there => decide_eq_true fun same => ?_
        exact fresh (List.mem_map.mpr ⟨other,there,same⟩)
      rw [List.filter_cons_of_neg (by simp),kept,List.map_cons,List.sum_cons]
      omega
    · have different : first.path ≠ e.path := fun same =>
        fresh (List.mem_map.mpr ⟨e,behind,same.symm⟩)
      rw [List.filter_cons_of_pos (by simp [different]),List.map_cons,List.sum_cons,
        ih others behind,List.map_cons,List.sum_cons]
      omega

theorem total_unlink (store : Store T) {e : Entry T} (inside : e ∈ store.entries) :
    (store.unlink e.path).total = store.total - e.size := by
  rw [Store.total,entries_unlink]
  exact sum_without (entries_distinct store) inside

/-- What an eviction keeps to: the account is the sum of what is left, nothing spared goes, nothing
is added, and it ends within the budget or with no victim left that can be removed. -/
structure Evicted (maxBytes : Int) (spared removable : String → Bool) (victims : List (Entry T))
    (store : Store T) (after : Int × Store T) : Prop where
  account : after.1 = after.2.total
  kept : ∀ blob ∈ store.blobs, spared blob.path = true → blob ∈ after.2.blobs
  left : ∀ blob ∈ after.2.blobs, blob ∈ store.blobs
  ends : after.1 ≤ maxBytes ∨
    ∀ e ∈ victims, e ∈ after.2.entries → spared e.path = true ∨ removable e.path = false

variable {maxBytes : Int} {spared removable : String → Bool}

theorem evict_evicted (victims : List (Entry T)) (store : Store T)
    (distinct : (victims.map (·.path)).Nodup) (inside : ∀ e ∈ victims, e ∈ store.entries) :
    Evicted maxBytes spared removable victims store
      (evict maxBytes spared removable victims (store.total,store)) := by
  induction victims generalizing store with
  | nil => exact ⟨rfl,fun _ there _ => there,fun _ there => there,.inr nofun⟩
  | cons e rest ih =>
    obtain ⟨fresh,others⟩ := List.nodup_cons.mp distinct
    have behind : ∀ e' ∈ rest, e' ∈ store.entries :=
      fun e' there => inside e' (List.mem_cons_of_mem _ there)
    -- an entry that is passed by stays for the reason given
    have passed (reason : spared e.path = true ∨ removable e.path = false) :
        Evicted maxBytes spared removable (e :: rest) store
          (evict maxBytes spared removable rest (store.total,store)) := by
      obtain ⟨account,kept,left_,ends⟩ := ih store others behind
      refine ⟨account,kept,left_,ends.imp_right fun each e' there stays => ?_⟩
      rcases List.mem_cons.mp there with rfl | there
      · exact reason
      · exact each e' there stays
    rw [evict]
    by_cases safe : spared e.path = true
    · rw [if_pos safe]
      exact passed (.inl safe)
    · rw [if_neg safe]
      by_cases stuck : removable e.path = false
      · rw [if_pos (by simp [stuck])]
        exact passed (.inr stuck)
      · rw [if_neg (by simpa using stuck)]
        have less := total_unlink store (inside e List.mem_cons_self)
        have kept : ∀ blob ∈ store.blobs, spared blob.path = true →
            blob ∈ (store.unlink e.path).blobs := by
          intro blob there spared_
          rw [blobs_unlink]
          refine List.mem_filter.mpr ⟨there,decide_eq_true fun same => safe ?_⟩
          rwa [same] at spared_
        have left_ : ∀ blob ∈ (store.unlink e.path).blobs, blob ∈ store.blobs := by
          intro blob there
          rw [blobs_unlink] at there
          exact (List.mem_filter.mp there).1
        rw [← less]
        by_cases enough : (store.unlink e.path).total ≤ maxBytes
        · rw [if_pos enough]
          exact ⟨rfl,kept,left_,.inl enough⟩
        · rw [if_neg enough]
          have there : ∀ e' ∈ rest, e' ∈ (store.unlink e.path).entries := by
            intro e' later
            rw [entries_unlink]
            refine List.mem_filter.mpr ⟨behind e' later,decide_eq_true fun same => fresh ?_⟩
            exact List.mem_map.mpr ⟨e',later,same⟩
          obtain ⟨account,kept',left',ends⟩ := ih (store.unlink e.path) others there
          refine ⟨account,fun blob old spared_ => kept' blob (kept blob old spared_) spared_,
            fun blob stays => left_ blob (left' blob stays),ends.imp_right fun each e' later => ?_⟩
          rcases List.mem_cons.mp later with rfl | later
          · intro stays
            obtain ⟨blob,old,entry⟩ := List.mem_filterMap.mp stays
            have gone := left' blob old
            rw [blobs_unlink] at gone
            obtain ⟨_,different⟩ := List.mem_filter.mp gone
            obtain ⟨stat,_,rfl⟩ := Option.map_eq_some_iff.mp entry
            simp at different
          · exact each e' later

/-- For every store, pins, protected digests and budget: trimming takes no blob that is protected or
pinned, accounts for exactly what is left, and ends within the budget or with no blob left but such
as are protected, pinned, not to be examined or not to be removed. -/
theorem trim_accounts [LinearOrder T] (root : String) (maxBytes : Int) (pins : Pins Owner)
    (removable : String → Bool) (protect : List String) (store : Store T) :
    (∀ problem, trim root maxBytes pins removable protect store = .error problem →
      ∃ digest ∈ protect, isDigest digest = false) ∧
    ∀ total after, trim root maxBytes pins removable protect store = .ok (total,after) →
      (∀ blob ∈ store.blobs, (∃ digest ∈ protect, blobPath root digest = .ok blob.path) ∨
        pinned pins blob.path = true → blob ∈ after.blobs) ∧
      (∀ blob ∈ after.blobs, blob ∈ store.blobs) ∧
      total = after.total ∧
      (total ≤ maxBytes ∨ ∀ blob ∈ after.blobs,
        (∃ digest ∈ protect, blobPath root digest = .ok blob.path) ∨
        pinned pins blob.path = true ∨ blob.stat = none ∨ removable blob.path = false) := by
  unfold trim
  constructor
  · intro problem failed
    by_contra valid
    simp only [not_exists,not_and,Bool.not_eq_false] at valid
    have paths : ∀ digests : List String, (∀ digest ∈ digests, isDigest digest = true) →
        ∃ paths, digests.mapM (blobPath root) = .ok paths := by
      intro digests
      induction digests with
      | nil => exact fun _ => ⟨[],rfl⟩
      | cons digest rest ih =>
        intro each
        obtain ⟨paths,read⟩ := ih fun d there => each d (List.mem_cons_of_mem _ there)
        rw [List.mapM_cons,read,blobPath,requireDigest,if_pos (each digest List.mem_cons_self)]
        exact ⟨_,rfl⟩
    obtain ⟨paths,read⟩ := paths protect valid
    rw [read] at failed
    contradiction
  · intro total after done
    obtain ⟨paths,read,done⟩ := Fallible.bind_ok.mp done
    have named (path : String) : path ∈ paths ↔
        ∃ digest ∈ protect, blobPath root digest = .ok path := by
      have each := Fallible.mapM_ok.mp read
      constructor
      · intro inside
        obtain ⟨i,bound,rfl⟩ := List.mem_iff_getElem.mp inside
        have bound' : i < protect.length := by rwa [each.length_eq]
        exact ⟨protect[i],List.getElem_mem _,each.get bound' bound⟩
      · rintro ⟨digest,inside,same⟩
        obtain ⟨i,bound,rfl⟩ := List.mem_iff_getElem.mp inside
        have bound' : i < paths.length := by rwa [← each.length_eq]
        have found := each.get bound bound'
        rw [List.get_eq_getElem,List.get_eq_getElem,same] at found
        exact List.mem_iff_getElem.mpr ⟨i,bound',(Except.ok.inj found).symm⟩
    simp only [pure,Except.pure,Except.ok.injEq] at done
    split at done
    · rename_i within
      obtain ⟨rfl,rfl⟩ := Prod.mk.inj done
      exact ⟨fun _ inside _ => inside,fun _ inside => inside,rfl,.inl within⟩
    · have listed := sortedBy_perm (fun e : Entry T => e.key) store.entries
      have evicted := @evict_evicted T maxBytes
        (fun path => paths.contains path || pinned pins path) removable
        (sortedBy (·.key) store.entries) store
        ((listed.map _).nodup_iff.mpr (entries_distinct store))
        fun e inside => listed.mem_iff.mp inside
      rw [done] at evicted
      refine ⟨fun blob inside reason => evicted.kept blob inside ?_,evicted.left,evicted.account,
        evicted.ends.imp_right fun each blob stays => ?_⟩
      · simp only [Bool.or_eq_true,List.contains_iff_mem]
        exact reason.imp_left (named _).mpr
      · cases stat : blob.stat with
        | none => exact .inr (.inr (.inl rfl))
        | some found =>
          have entry : blob.entry = some ⟨found.mtime,found.size,blob.path⟩ := by
            rw [Blob.entry,stat]
            rfl
          have known := List.mem_filterMap.mpr ⟨blob,evicted.left blob stays,entry⟩
          have reason := each _ (listed.mem_iff.mpr known)
            (List.mem_filterMap.mpr ⟨blob,stays,entry⟩)
          simp only [Bool.or_eq_true,List.contains_iff_mem,named] at reason
          rcases reason with (protected_ | pinned_) | stuck
          · exact .inl protected_
          · exact .inr (.inl pinned_)
          · exact .inr (.inr (.inr stuck))

/-- Two blobs of ten bytes, the first used before the second. -/
def twoBlobs : Store Nat where
  shards := [⟨"ab",true,[⟨"/cas/ab/x",some ⟨1,10⟩⟩,⟨"/cas/ab/y",some ⟨2,10⟩⟩]⟩]
  distinct := by decide

theorem trim_accounts_evicted : ∃ total after,
    trim "/cas" 15 (Dict.empty : Pins Nat) (fun _ => true) [] twoBlobs = .ok (total,after) ∧
    total = after.total :=
  ⟨10,twoBlobs.unlink "/cas/ab/x",rfl,
    ((trim_accounts "/cas" 15 (Dict.empty : Pins Nat) (fun _ => true) [] twoBlobs).2 10
      (twoBlobs.unlink "/cas/ab/x") rfl).2.2.1⟩

/-- Where no file can be removed, blobs that nobody protects or pins stay beyond the budget. -/
theorem unremovable_stays : ∃ total after,
    trim "/cas" 15 (Dict.empty : Pins Nat) (fun _ => false) [] twoBlobs = .ok (total,after) ∧
    ¬ total ≤ 15 ∧ ∃ blob ∈ after.blobs, ¬ ((∃ digest ∈ ([] : List String),
      blobPath "/cas" digest = .ok blob.path) ∨ pinned (Dict.empty : Pins Nat) blob.path = true) :=
  ⟨20,twoBlobs,rfl,by decide,⟨"/cas/ab/x",some ⟨1,10⟩⟩,List.mem_cons_self,by
    rintro (⟨_,inside,_⟩ | held)
    · cases inside
    · cases held⟩

end Dinkster.Caches.Cas
