import Dinkster.Lib.Canonical
import Dinkster.Lib.Dict
import Dinkster.Lib.Fallible
import Dinkster.Lib.JsonObject
import Dinkster.Registry.Model

/-! Releases and their index, the template catalog over each pack's latest release, and the review
log of a submitted version. -/
namespace Dinkster.Registry
open Json Canonical

structure ReleaseTemplate where
  id : String
  name : String
  digest : String
  path : String
  description : String
  tags : List String
  family : String
  models : List String
  assets : List String
  thumbnailDigest : String
  thumbnailMediaType : String
  thumbnailPath : String
  deriving DecidableEq

def written (present : Bool) (key : String) (v : Value) : Object := Object.writtenIf present key v

/-- `ReleaseTemplate.descriptor` -/
def ReleaseTemplate.descriptor (t : ReleaseTemplate) (pack version : String) : Value :=
  .obj ([("pack",.str pack),("version",.str version),("id",.str t.id),("name",.str t.name),
      ("digest",.str t.digest)] ++
    written (t.description ≠ "") "description" (.str t.description) ++
    written (t.tags ≠ []) "tags" (.arr (t.tags.map .str)) ++
    written (t.family ≠ "") "family" (.str t.family) ++
    written (t.models ≠ []) "models" (.arr (t.models.map .str)) ++
    written (t.assets ≠ []) "assets" (.arr (t.assets.map .str)) ++
    written (t.thumbnailDigest ≠ "") "thumbnail" (.obj [("digest",.str t.thumbnailDigest),
      ("mediaType",.str t.thumbnailMediaType)]))

structure Release where
  pack : String
  version : String
  artifactDigest : String
  publisher : String
  claims : List String
  nodeTypes : List String
  templates : List ReleaseTemplate
  deriving DecidableEq

/-- `_by_key`: the releases in the order of their publication. -/
abbrev ReleaseIndex := Dict (String × String) Release

/-- `release {pack} {version} is already published with digest {digest}; publishing different bytes
requires a new version` -/
structure Immutable where
  pack : String
  version : String
  digest : String
  deriving DecidableEq

/-- `ReleaseIndex.add` -/
def ReleaseIndex.add (index : ReleaseIndex) (release : Release) :
    Except Immutable Release × ReleaseIndex :=
  match index.get? (release.pack,release.version) with
  | some existing =>
    if existing.artifactDigest = release.artifactDigest then (.ok existing,index)
    else (.error ⟨release.pack,release.version,existing.artifactDigest⟩,index)
  | none => (.ok release,index.set (release.pack,release.version) release)

def ReleaseIndex.releases (index : ReleaseIndex) : List Release := index.entries.map (·.2)

section

variable {V K : Type} [LinearOrder K] (packaging : Packaging V K)

/-- `Version.parse(a) < Version.parse(b)`; `none` where one of them is no version. -/
def versionLt (a b : String) : Option Bool :=
  match parseVersion packaging a,parseVersion packaging b with
  | some v,some w => some (packaging.key v < packaging.key w)
  | _,_ => none

def latestStep (latest : Dict String Release) (release : Release) : Option (Dict String Release) :=
  match latest.get? release.pack with
  | none => some (latest.set release.pack release)
  | some current => (versionLt packaging current.version release.version).map fun older =>
      if older then latest.set release.pack release else latest

/-- Each pack's latest release; `none` where a version does not parse. -/
def latestOf (releases : List Release) : Option (Dict String Release) :=
  releases.foldlM (latestStep packaging) .empty

/-- The rows of `template_catalog` for releases in the order of their publication. -/
def templateCatalog (releases : List Release) : Option (List Value) :=
  (latestOf packaging releases).map fun latest =>
    (sortedBy (·.pack) (latest.entries.map (·.2))).flatMap fun release =>
      (sortedBy (·.id) release.templates).map fun t => t.descriptor release.pack release.version

def Ranked (a b : Release) : Prop := a.pack = b.pack →
  versionLt packaging a.version b.version = some true ∨
    versionLt packaging b.version a.version = some true

structure Latest (releases : List Release) (release : Release) : Prop where
  listed : release ∈ releases
  newest : ∀ other ∈ releases, other.pack = release.pack → other = release ∨
    versionLt packaging other.version release.version = some true

variable {packaging}

theorem versionLt_some {a b : String} {older : Bool} : versionLt packaging a b = some older ↔
    ∃ v w, parseVersion packaging a = some v ∧ parseVersion packaging b = some w ∧
      older = decide (packaging.key v < packaging.key w) := by
  unfold versionLt
  cases parseVersion packaging a with
  | none => simp
  | some v =>
    cases parseVersion packaging b with
    | none => simp
    | some w => simp [eq_comm]

theorem versionLt_asymm {a b : String} (older : versionLt packaging a b = some true) :
    versionLt packaging b a = some false := by
  obtain ⟨v,w,left,right,less⟩ := versionLt_some.mp older
  refine versionLt_some.mpr ⟨w,v,right,left,?_⟩
  simpa using (of_decide_eq_true less.symm).le

theorem versionLt_trans {a b c : String} (first : versionLt packaging a b = some true)
    (second : versionLt packaging b c = some true) : versionLt packaging a c = some true := by
  obtain ⟨u,v,left,middle,less⟩ := versionLt_some.mp first
  obtain ⟨v',w,middle',right,less'⟩ := versionLt_some.mp second
  obtain rfl := Option.some.inj (middle.symm.trans middle')
  refine versionLt_some.mpr ⟨u,w,left,right,?_⟩
  simpa using (of_decide_eq_true less.symm).trans (of_decide_eq_true less'.symm)

theorem Ranked.symm {a b : Release} (ranked : Ranked packaging a b) : Ranked packaging b a :=
  fun same => (ranked same.symm).symm

instance ranked_symm : Std.Symm (Ranked packaging) where
  symm _ _ := Ranked.symm

theorem Latest.unique {releases : List Release} {a b : Release}
    (latest : Latest packaging releases a) (latest' : Latest packaging releases b)
    (same : a.pack = b.pack) : a = b := by
  rcases latest.newest b latest'.listed same.symm with rfl | older
  · rfl
  · rcases latest'.newest a latest.listed same with rfl | older'
    · rfl
    · cases (versionLt_asymm older).symm.trans older'

theorem latestStep_spec {latest : Dict String Release} {seen : List Release} {release : Release}
    (spec : ∀ pack r, latest.get? pack = some r ↔ r.pack = pack ∧ Latest packaging seen r)
    (ranked : ∀ r ∈ seen, Ranked packaging r release)
    (first : latest.get? release.pack = none → ∀ r ∈ seen, r.pack ≠ release.pack) :
    ∃ latest', latestStep packaging latest release = some latest' ∧
      ∀ pack r, latest'.get? pack = some r ↔
        r.pack = pack ∧ Latest packaging (seen ++ [release]) r := by
  have others {r : Release} (other : r.pack ≠ release.pack) :
      Latest packaging seen r ↔ Latest packaging (seen ++ [release]) r := by
    constructor
    · intro latest
      refine ⟨List.mem_append_left _ latest.listed,fun r' inside same => ?_⟩
      rcases List.mem_append.mp inside with old | new
      · exact latest.newest r' old same
      · rw [List.mem_singleton.mp new] at same
        exact absurd same.symm other
    · intro latest
      refine ⟨?_,fun r' inside => latest.newest r' (List.mem_append_left _ inside)⟩
      rcases List.mem_append.mp latest.listed with old | new
      · exact old
      · exact absurd (congrArg Release.pack (List.mem_singleton.mp new)) other
  -- what the table holds once the release is its pack's latest
  have replaced (newest : Latest packaging (seen ++ [release]) release) (pack : String)
      (r : Release) : (latest.set release.pack release).get? pack = some r ↔
        r.pack = pack ∧ Latest packaging (seen ++ [release]) r := by
    rw [Dict.get?_set]
    split
    · rename_i same
      constructor
      · intro found
        obtain rfl := Option.some.inj found
        exact ⟨same.symm,newest⟩
      · rintro ⟨rfl,latest⟩
        rw [newest.unique latest same.symm]
    · rename_i other
      rw [spec]
      refine and_congr_right fun same => others ?_
      rwa [same]
  have closing : release ∈ seen ++ [release] := List.mem_append_right _ List.mem_cons_self
  unfold latestStep
  cases found : latest.get? release.pack with
  | none =>
    refine ⟨_,rfl,replaced ⟨closing,fun r inside same => ?_⟩⟩
    rcases List.mem_append.mp inside with old | new
    · exact absurd same (first found r old)
    · exact .inl (List.mem_singleton.mp new)
  | some current =>
    obtain ⟨same,newest⟩ := (spec release.pack current).mp found
    rcases ranked current newest.listed same with older | newer
    · refine ⟨_,by simp [older],replaced ⟨closing,fun r inside sameAs => ?_⟩⟩
      rcases List.mem_append.mp inside with old | new
      · rcases newest.newest r old (sameAs.trans same.symm) with rfl | earlier
        · exact .inr older
        · exact .inr (versionLt_trans earlier older)
      · exact .inl (List.mem_singleton.mp new)
    · refine ⟨_,by simp [versionLt_asymm newer],fun pack r => (spec pack r).trans ?_⟩
      refine and_congr_right fun _ => ?_
      by_cases other : r.pack = release.pack
      · have stays : Latest packaging (seen ++ [release]) current := by
          refine ⟨List.mem_append_left _ newest.listed,fun r' inside sameAs => ?_⟩
          rcases List.mem_append.mp inside with old | new
          · exact newest.newest r' old sameAs
          · obtain rfl := List.mem_singleton.mp new
            exact .inr newer
        constructor
        · intro latest
          rw [latest.unique newest (other.trans same.symm)]
          exact stays
        · intro latest
          rw [latest.unique stays (other.trans same.symm)]
          exact newest
      · exact others other

theorem latestOf_spec {releases : List Release} (ranked : releases.Pairwise (Ranked packaging)) :
    ∃ latest, latestOf packaging releases = some latest ∧
      ∀ pack r, latest.get? pack = some r ↔ r.pack = pack ∧ Latest packaging releases r := by
  -- every pack seen has an entry, so that a missing entry is a first release
  suffices general : ∀ rest seen (latest : Dict String Release), (seen ++ rest).Pairwise (Ranked packaging) →
      (∀ pack r, latest.get? pack = some r ↔ r.pack = pack ∧ Latest packaging seen r) →
      (∀ r ∈ seen, r.pack ∈ latest.keys) →
      ∃ latest', rest.foldlM (latestStep packaging) latest = some latest' ∧
        ∀ pack r, latest'.get? pack = some r ↔
          r.pack = pack ∧ Latest packaging (seen ++ rest) r by
    refine general releases [] .empty ranked (fun pack r => ?_) nofun
    exact iff_of_false nofun fun latest => nomatch latest.2.listed
  clear ranked releases
  intro rest
  induction rest with
  | nil =>
    intro seen latest _ spec _
    exact ⟨latest,rfl,by simpa using spec⟩
  | cons release rest ih =>
    intro seen latest ranked spec keyed
    have before : ∀ r ∈ seen, Ranked packaging r release := fun r inside =>
      (List.pairwise_append.mp ranked).2.2 r inside release List.mem_cons_self
    obtain ⟨latest',stepped,spec'⟩ := latestStep_spec spec before fun missing r inside same =>
      (Dict.get?_eq_none_iff _ _).mp missing (same ▸ keyed r inside)
    have keyed' : ∀ r ∈ seen ++ [release], r.pack ∈ latest'.keys := by
      intro r inside
      have kept : ∀ pack ∈ latest.keys, pack ∈ latest'.keys := by
        intro pack held
        unfold latestStep at stepped
        split at stepped
        · obtain rfl := Option.some.inj stepped
          simp [held]
        · obtain ⟨older,_,rfl⟩ := Option.map_eq_some_iff.mp stepped
          split
          · simp [held]
          · exact held
      rcases List.mem_append.mp inside with old | new
      · exact kept _ (keyed r old)
      · obtain rfl := List.mem_singleton.mp new
        unfold latestStep at stepped
        split at stepped
        · obtain rfl := Option.some.inj stepped
          simp
        · rename_i current found
          exact kept _ ((Dict.mem_keys_iff _ _).mpr ⟨current,found⟩)
    obtain ⟨final,folded,done⟩ := ih (seen ++ [release]) latest' (by simpa using ranked) spec' keyed'
    refine ⟨final,?_,by simpa using done⟩
    rw [List.foldlM_cons,stepped]
    exact folded

theorem catalog_perm {releases : List Release} (ranked : releases.Pairwise (Ranked packaging)) :
    ∃ rows, templateCatalog packaging releases = some rows ∧
      ∀ releases', releases'.Perm releases → templateCatalog packaging releases' = some rows := by
  obtain ⟨latest,listed,spec⟩ := latestOf_spec ranked
  refine ⟨_,by rw [templateCatalog,listed,Option.map_some],fun releases' permuted => ?_⟩
  have ranked' : releases'.Pairwise (Ranked packaging) :=
    (permuted.pairwise_iff fun {_ _} => Ranked.symm).mpr ranked
  obtain ⟨latest',listed',spec'⟩ := latestOf_spec ranked'
  have moved {l l' : List Release} {r : Release} (permuted : l.Perm l')
      (held : Latest packaging l r) : Latest packaging l' r :=
    ⟨permuted.mem_iff.mp held.listed,fun o inside => held.newest o (permuted.mem_iff.mpr inside)⟩
  have same : latest'.entries.Perm latest.entries := by
    refine Dict.perm_of_get? fun pack => Option.ext fun r => ?_
    rw [spec,spec']
    exact and_congr_right fun _ => ⟨moved permuted,moved permuted.symm⟩
  have packs : ∀ r ∈ latest'.entries.map (·.2), latest'.get? r.pack = some r := by
    intro r inside
    obtain ⟨⟨pack,r⟩,held,rfl⟩ := List.mem_map.mp inside
    have found := (Dict.get?_eq_some_iff _ _ _).mpr held
    rwa [((spec' pack r).mp found).1]
  have sorted : sortedBy (·.pack) (latest'.entries.map (·.2)) =
      sortedBy (·.pack) (latest.entries.map (·.2)) := by
    refine sortedBy_of_perm (same.map _) fun a inside b inside' key => ?_
    have found := packs a inside
    rw [key,packs b inside'] at found
    exact (Option.some.inj found).symm
  rw [templateCatalog,listed',Option.map_some,sorted]

end

inductive VersionState where
  | submitted | accepted | needsReview | rejected | yanked
  deriving DecidableEq

/-- `_TRANSITIONS` -/
def VersionState.transitions : VersionState → List VersionState
  | .submitted => [.accepted,.needsReview,.rejected]
  | .needsReview => [.accepted,.rejected]
  | .rejected => [.needsReview]
  | .accepted => [.yanked]
  | .yanked => []

/-- `_REASON_REQUIRED` -/
def VersionState.reasoned : VersionState → Bool
  | .needsReview | .rejected | .yanked => true
  | .submitted | .accepted => false

structure ReviewTransition where
  toState : VersionState
  actor : String
  reason : String
  at_ : String
  deriving DecidableEq

structure ReviewLog where
  first : ReviewTransition
  rest : List ReviewTransition
  deriving DecidableEq

inductive ReviewError where
  /-- `review transitions require an actor` -/
  | noActor
  /-- `cannot move a version from {before!r} to {after!r}; allowed: ..` -/
  | forbidden (before after : VersionState)
  /-- `entering {after!r} requires an explicit reason - ..` -/
  | noReason (after : VersionState)
  deriving DecidableEq

namespace ReviewLog

def transitions (log : ReviewLog) : List ReviewTransition := log.first :: log.rest

def state (log : ReviewLog) : VersionState :=
  (log.transitions.getLast (List.cons_ne_nil _ _)).toState

/-- `ReviewLog.start` -/
def start (actor at_ : String) : Except ReviewError ReviewLog :=
  if actor = "" then .error .noActor else .ok ⟨⟨.submitted,actor,"",at_⟩,[]⟩

/-- `ReviewLog.advance` -/
def advance (log : ReviewLog) (toState : VersionState) (actor at_ reason : String) :
    Except ReviewError ReviewLog :=
  if actor = "" then .error .noActor
  else if toState ∉ log.state.transitions then .error (.forbidden log.state toState)
  else if toState.reasoned ∧ reason = "" then .error (.noReason toState)
  else .ok { log with rest := log.rest ++ [⟨toState,actor,reason,at_⟩] }

end ReviewLog

end Dinkster.Registry
