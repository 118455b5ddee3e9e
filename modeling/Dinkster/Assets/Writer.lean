import Dinkster.Lib.Dict
import Dinkster.Lib.Publication
import Dinkster.Lib.Transition

/-! The asset writer: savers of any processes fill temporaries in the folders of a mount and link
them under names that are free at that moment. One move is one system call, or one call into the
code that handed the bytes over; every call may raise. -/
namespace Dinkster.Writer
open Publication (Shelf Change)

/-- Path parts; a file's path is its folder's path and its name. -/
abbrev Path := List String

/-- What the writer takes from the platform: the hash, `uuid4`, `Path.resolve` of the folders and
Python's character tables. -/
structure Host where
  blake3 : List UInt8 → String
  uuid : Nat → String
  resolve : Path → Path
  fold : Char → List Char
  space : Char → Bool
  decimal : Char → Option Nat

variable (host : Host)

def lockName : String := ".dinkster-asset-writer.lock"

def sidecarName : String := ".dinkster-asset-writes.jsonl"

def sidecarLockName : String := ".dinkster-asset-writes.jsonl.lock"

def tempName (call : Nat) : String := ".dinkster-save-" ++ host.uuid call

def casefold (text : String) : String := String.ofList (text.toList.flatMap host.fold)

/-- `f"{counter:05d}"` -/
def padded (counter : Int) : String :=
  let digits := counter.natAbs.repr
  let sign := if counter < 0 then "-" else ""
  sign ++ "".pushn '0' (5 - sign.length - digits.length) ++ digits

/-- `f"{stem}_{counter:05d}{suffix}"` -/
def numbered (stem : String) (counter : Int) (suffix : String) : String :=
  stem ++ "_" ++ padded counter ++ suffix

def digits? (text : List Char) : Option Int :=
  if text = [] then none
  else (text.mapM host.decimal).map fun ds => ds.foldl (fun n (d : Nat) => 10 * n + d) 0

/-- `int(text)` of a text without `_`. -/
def int? (text : List Char) : Option Int :=
  match (text.dropWhile host.space).rdropWhile host.space with
  | '-' :: rest => (digits? host rest).map fun n => -n
  | '+' :: rest => digits? host rest
  | rest => digits? host rest

def after? (start text : List Char) : Option (List Char) :=
  if start.isPrefixOf text then some (text.drop start.length) else none

def nextCounter (seen : List String) (stem : String) : Int :=
  let counters := seen.filterMap fun name =>
    (after? (stem ++ "_").toList name.toList).map fun rest =>
      (int? host ((rest.takeWhile (· ≠ '.')).takeWhile (· ≠ '_'))).getD 0
  counters.max?.getD 0 + 1

/-- The number in a name that `^stem_(\d+)suffix$` matches; `$` lets a last line feed pass. -/
def matched (stem suffix name : String) : Option Int :=
  (after? (stem ++ "_").toList name.toList).bind fun rest =>
    let number := rest.takeWhile fun c => (host.decimal c).isSome
    let tail := rest.drop number.length
    if tail = suffix.toList ∨ tail = suffix.toList ++ ['\n'] then digits? host number else none

/-- `_next_counter_for_suffix` -/
def nextCounterForSuffix (seen : List String) (stem suffix : String) : Int :=
  (seen.filterMap (matched host stem suffix)).foldl (fun counter n => max counter (n + 1)) 1

/-- Why a save is refused before it touches the disk. -/
inductive Refusal
  | target
  | limit
  | suffix
  | portable
  | resource
  | noSources
  | caseCollision
  | kindCollision

def mountId (mount : String) : Bool :=
  let alphanumeric (c : Char) := c.isLower || c.isDigit
  match mount.toList with
  | [] => false
  | c :: rest => alphanumeric c && rest.all fun c => alphanumeric c || c == '-'

def plain (segment : String) : Prop :=
  segment ∉ ["",".",".."] ∧ '\\' ∉ segment.toList ∧ '/' ∉ segment.toList

instance (segment : String) : Decidable (plain segment) := inferInstanceAs (Decidable (_ ∧ _ ∧ _))

/-- A save target, with its prefix as `prefix.split("/")`. -/
structure SaveTarget where
  mount : String
  segments : List String
  granted : mountId mount = true
  named : segments ≠ []
  contained : ∀ segment ∈ segments, plain segment

def SaveTarget.make (mount : String) (segments : List String) : Except Refusal SaveTarget :=
  if granted : mountId mount = true then
    if named : segments = [] then .error .target
    else if contained : ∀ segment ∈ segments, plain segment then
      .ok ⟨mount,segments,granted,named,contained⟩
    else .error .target
  else .error .target

namespace SaveTarget

def stem (t : SaveTarget) : String := t.segments.getLast t.named

def subfolder (t : SaveTarget) : List String := t.segments.dropLast

end SaveTarget

/-- `^_?\.[A-Za-z0-9][A-Za-z0-9.]*$` -/
def suffixMatches (suffix : String) : Bool :=
  let text := match suffix.toList with
    | '_' :: rest => rest
    | rest => rest
  let text := if text.getLast? = some '\n' then text.dropLast else text
  match text with
  | '.' :: c :: rest => c.isAlphanum && rest.all fun c => c.isAlphanum || c == '.'
  | _ => false

def validatedTarget (suffix : String) (limit : Int) : Except Refusal Unit :=
  if limit < 0 then .error .limit
  else if suffixMatches suffix then .ok ⟨⟩
  else .error .suffix

def reserved : List String :=
  ["con","prn","aux","nul"] ++ ["com","lpt"].flatMap fun device =>
    (List.range' 1 9).map fun index => device ++ index.repr

def portable (segment : String) : Prop :=
  segment.length ≤ 255 ∧ segment.toList.getLast? ∉ [some '.',some ' '] ∧
    ¬ ".dinkster-".toList <+: (casefold host segment).toList ∧
    casefold host (String.ofList (segment.toList.takeWhile (· ≠ '.'))) ∉ reserved ∧
    ∀ c ∈ segment.toList, 32 ≤ c.val ∧ c ∉ "<>:\"|?*\x7f".toList

instance (segment : String) : Decidable (portable host segment) :=
  inferInstanceAs (Decidable (_ ∧ _ ∧ _ ∧ _ ∧ _))

def validatedNamedTarget (segments : List String) (limit : Int) : Except Refusal Unit :=
  if limit < 0 then .error .limit
  else if ∀ segment ∈ segments, portable host segment then .ok ⟨⟩
  else .error .portable

/-- `Path(stem).suffix` -/
def pathSuffix (stem : String) : List Char :=
  let tail := (stem.toList.reverse.takeWhile (· ≠ '.')).reverse
  if tail ≠ [] ∧ tail.length + 1 < stem.length then '.' :: tail else []

def pathBase (stem : String) : String :=
  String.ofList (stem.toList.take (stem.length - (pathSuffix stem).length))

def named (t : SaveTarget) : Except Refusal SaveTarget :=
  SaveTarget.make t.mount (t.subfolder ++ [pathBase t.stem])

/-- `validate_resource_name` of a name, with the name as `name.split("/")`. -/
def resourceName (name : List String) : Prop :=
  name ≠ [] ∧ ∀ part ∈ name, part ∉ ["",".",".."] ∧
    ∀ c ∈ part.toList, c ∉ "\\:%?#".toList ∧ 32 ≤ c.val ∧ c.val ≠ 127

instance (name : List String) : Decidable (resourceName name) :=
  inferInstanceAs (Decidable (_ ∧ ∀ _ ∈ _, _ ∧ _))

/-- What the group check has seen: the spelling of every folded path, the files and the folders. -/
structure Seen where
  canonical : Dict String String := .empty
  files : List String := []
  folders : List String := []

def Seen.note (seen : Seen) (last : Bool) (path : List String) : Except Refusal Seen :=
  let text := "/".intercalate path
  let folded := casefold host text
  if (seen.canonical.get? folded).any (· ≠ text) then .error .caseCollision
  else
    let canonical := seen.canonical.set folded text
    .ok (if last then { seen with canonical, files := folded :: seen.files }
      else { seen with canonical, folders := folded :: seen.folders })

def Seen.member (limit : Int) (seen : Seen) (name : List String) : Except Refusal Seen :=
  if resourceName name then
    (validatedNamedTarget host name limit).bind fun _ =>
      name.inits.tail.foldlM (fun seen path => seen.note host (path.length = name.length) path) seen
  else .error .resource

def validatedGroup (names : List (List String)) (limit : Int) : Except Refusal Unit :=
  if names = [] then .error .noSources
  else (names.foldlM (Seen.member host limit) {}).bind fun seen =>
    if ∃ path ∈ seen.files, path ∈ seen.folders then .error .kindCollision else .ok ⟨⟩

/-- The save operations; `save_bytes` is `stream` of the bytes with their length as the limit. -/
inductive Save
  | stream (target : SaveTarget) (suffix mediaType : String) (limit : Int)
  | named (target : SaveTarget) (mediaType : String) (limit : Int) (beforePublish : Bool)
  | group (target : SaveTarget) (names : List (List String))
      (mediaTypes : List (List String × String)) (limit : Int)
  | encoded (target : SaveTarget) (suffix mediaType : String) (limit : Int)
  | batch (target : SaveTarget) (suffix mediaType : String) (limit : Int)

/-- The target whose folder the save claims. -/
def Save.validated : Save → Except Refusal SaveTarget
  | .stream target suffix _ limit | .encoded target suffix _ limit | .batch target suffix _ limit =>
    (validatedTarget suffix limit).map fun _ => target
  | .named target _ limit _ =>
    (validatedNamedTarget host target.segments limit).bind fun _ => Writer.named target
  | .group target names _ limit =>
    (validatedNamedTarget host target.segments limit).bind fun _ =>
      (validatedGroup host names limit).map fun _ => target

structure AssetRef where
  digest : String
  name : String
  size : Nat
  mediaType : String
  virtualPath : String

structure Published where
  ref : AssetRef
  place : Path

/-- The arguments of `_write_stream`. -/
structure Write where
  target : SaveTarget
  suffix : String
  mediaType : String
  limit : Int
  counter : Option Int := none
  stem : String := target.stem
  expectedRoot : Option Path := none
  strictCounter : Bool := false
  preferExactName : Bool := false
  beforePublish : Bool := false

structure Draft where
  root : Path
  folder : Path
  call : Nat
  copied : List UInt8 := []

inductive Stage
  | entering
  | naming (root folder : Path)
  | opening (d : Draft)
  | copying (d : Draft)
  | copied (d : Draft)
  | exact (d : Draft)
  | scanning (d : Draft)
  | landing (d : Draft) (counter : Int)
  | closing (d : Draft) (landed : Option (String × Int))
  | recording (d : Draft) (name : String) (counter : Int)

inductive Point
  | called
  | opening
  | waiting
  | counting
  | exporting (counter : Int)
  | encoding (counter : Int)
  | selecting
  | writing (w : Write) (stage : Stage)
  | releasing (failed : Bool)
  | returned
  | raised
  | killed

def Point.over : Point → Bool
  | .returned | .raised | .killed => true
  | _ => false

structure Saver where
  save : Save
  root : Path := []
  folder : Path := []
  counter : Option Int := none
  announced : Option (String × Int) := none
  export_ : String := ""
  /-- How many sources of a group or a batch were taken. -/
  taken : Nat := 0
  publications : List Published := []
  point : Point := .called

structure World where
  shelf : Shelf Path UInt8
  /-- `writable_root` by mount; `none` where it raises. -/
  grants : String → Option Path
  claims : Path → Option Nat := fun _ => none
  savers : Nat → Option Saver := fun _ => none
  /-- Calls whose temporary was not removed: the removal raised, or the process was killed. -/
  abandoned : List Nat := []

/-- How the pending call of a saver ends. A scan is not atomic and stops at an error, so what it
saw is left open. -/
inductive Move
  | go
  | fail
  | read (chunk : List UInt8)
  | scan (seen : List String)
  | record (line : List UInt8)
  | stop

inductive Effect
  | tree (change : Change Path UInt8)
  | acquire (path : Path)
  | release (path : Path)
  | abandon (call : Nat)

/-- The file that a lexical path stands for. -/
def place (folder : Path) (name : String) : Path := host.resolve folder ++ [name]

/-- `_require_contained` -/
def contained (root path : Path) : Bool := (host.resolve root).isPrefixOf (host.resolve path)

/-- The loop of `_writable_folder`: the folders it makes and, unless it raises, the last one. -/
def enter (w : World) (root : Path) : List String → Path → List Path × Option Path
  | [], folder => ([],some folder)
  | part :: rest, folder =>
    let next := folder ++ [part]
    if contained host root next then
      match w.shelf.tree.nodes (host.resolve next) with
      | some (.file _) => ([],none)
      | some .directory => enter w root rest next
      | none =>
        let (made,last) := enter w root rest next
        (host.resolve next :: made,last)
    else ([],none)

def sameRoot (w : World) (mount : String) (root : Path) : Bool :=
  (w.grants mount).map host.resolve == some (host.resolve root)

/-- `_writable_folder` -/
def writableFolder (w : World) (target : SaveTarget) (expectedRoot : Option Path) :
    List Path × Option (Path × Path) :=
  match w.grants target.mount with
  | none => ([],none)
  | some root =>
    if expectedRoot.any fun expected => host.resolve root ≠ host.resolve expected then ([],none)
    else if w.shelf.tree.nodes (host.resolve root) ≠ some .directory then ([],none)
    else
      let (made,last) := enter host w root target.subfolder root
      (made,last.map fun folder => (root,folder))

namespace Draft

variable (d : Draft)

def tempPath : Path := place host d.folder (tempName host d.call)

def relative (name : String) : List String := d.folder.drop d.root.length ++ [name]

def ref (w : Write) (name : String) : AssetRef where
  digest := "blake3:" ++ host.blake3 d.copied
  name := name
  size := d.copied.length
  mediaType := w.mediaType
  virtualPath := "/".intercalate (["mounts",w.target.mount] ++ d.relative name)

end Draft

inductive Next
  | stage (s : Stage)
  | raised
  | returned (ref : Published) (counter : Int)

namespace Write

/-- What `before_publish` is followed by: the mount still has its root and the name its folder. -/
def mayPublish (w : World) (wr : Write) (d : Draft) (name : String) : Bool :=
  !wr.beforePublish ||
    sameRoot host w wr.target.mount d.root && contained host d.root (d.folder ++ [name])

def tryLink (w : World) (wr : Write) (d : Draft) (name : String) (counter : Int) (taken : Stage) :
    List Effect × Next :=
  if mayPublish host w wr d name then
    match w.shelf.tree.nodes (place host d.folder name) with
    | none => ([.tree (.link d.call (place host d.folder name))],
        .stage (.closing d (some (name,counter))))
    | some _ => ([],.stage (if wr.strictCounter then .closing d none else taken))
  else ([],.stage (.closing d none))

/-- Where `_claim_and_land` starts to number. -/
def number (wr : Write) (d : Draft) : Stage :=
  match wr.counter with
  | some counter => .landing d counter
  | none => .scanning d

def record (d : Draft) (line : List UInt8) : List Effect :=
  [.tree (.touch (place host d.root sidecarLockName)),.tree (.touch (place host d.root sidecarName)),
    .tree (.append (place host d.root sidecarName) line)]

/-- `_write_stream` with `_claim_and_land`; the `finally` removes whatever has the temporary's
name. -/
def next (w : World) (wr : Write) : Stage → Move → Option (List Effect × Next)
  | .entering,.go =>
    let (made,entered) := writableFolder host w wr.target wr.expectedRoot
    some ([.tree (.folders made)],match entered with
      | some (root,folder) => .stage (.naming root folder)
      | none => .raised)
  | .entering,.fail => some ([],.raised)
  | .naming root folder,.go =>
    some ([.tree .call],.stage (.opening ⟨root,folder,w.shelf.calls.length,[]⟩))
  | .opening d,.go =>
    match w.shelf.tree.nodes (d.tempPath host) with
    | none => some ([.tree (.create d.call (d.tempPath host))],.stage (.copying d))
    | some _ => some ([],.stage (.closing d none))
  | .copying d,.read chunk =>
    if chunk = [] then some ([],.stage (.copied d))
    else if wr.limit < d.copied.length + chunk.length then some ([],.stage (.closing d none))
    else some ([.tree (.extend d.call chunk)],
      .stage (.copying { d with copied := d.copied ++ chunk }))
  | .copied d,.go =>
    if wr.preferExactName then
      let (made,entered) := writableFolder host w wr.target (some d.root)
      some ([.tree (.folders made)],.stage (if entered.isSome then .exact d else .closing d none))
    else some ([],.stage (wr.number d))
  | .exact d,.go => some (wr.tryLink host w d (wr.stem ++ wr.suffix) 0 (wr.number d))
  | .scanning d,.scan seen =>
    some ([],.stage (.landing d (nextCounterForSuffix host seen wr.stem wr.suffix)))
  | .landing d counter,.go =>
    some (wr.tryLink host w d (numbered wr.stem counter wr.suffix) counter
      (.landing d (counter + 1)))
  | .closing d landed,.go =>
    some ([.tree (.remove d.call (d.tempPath host))],match landed with
      | some (name,counter) => .stage (.recording d name counter)
      | none => .raised)
  | .closing d _,.fail => some ([.abandon d.call],.raised)
  | .recording d name counter,.record line =>
    some (record host d line,
      .returned ⟨d.ref host wr name,place host d.folder name⟩ (counter + 1))
  | .recording d name counter,.go =>
    some ([],.returned ⟨d.ref host wr name,place host d.folder name⟩ (counter + 1))
  | .recording _ _ _,.fail => some ([],.raised)
  | .opening d,.fail | .copying d,.fail | .copied d,.fail | .exact d,.fail | .scanning d,.fail
  | .landing d _,.fail => some ([],.stage (.closing d none))
  | _,_ => none

end Write

namespace Saver

variable (s : Saver)

def lockPath : Path := place host s.folder lockName

def claimed : Saver :=
  match s.save with
  | .stream target suffix mediaType limit =>
    { s with point := .writing { target, suffix, mediaType, limit } .entering }
  | .named target mediaType limit beforePublish =>
    match named target with
    | .error _ => { s with point := .releasing true }
    | .ok base => { s with point := .writing { target := base
                                               suffix := String.ofList (pathSuffix target.stem)
                                               mediaType, limit, beforePublish
                                               expectedRoot := some s.root
                                               preferExactName := true } .entering }
  | .group _ _ _ _ | .encoded _ _ _ _ | .batch _ _ _ _ => { s with point := .counting }

def count (target : SaveTarget) (seen : List String) : Saver :=
  let counter := nextCounter host seen target.stem
  match s.save with
  | .group _ _ _ _ => { s with point := .exporting counter }
  | .encoded _ _ _ _ =>
    { s with announced := some (target.stem,counter), point := .encoding counter }
  | _ => { s with counter := some counter, point := .selecting }

/-- The write of the group's next member. -/
def member (target : SaveTarget) (mediaTypes : List (List String × String)) (limit : Int)
    (name : List String) : Except Refusal Write :=
  (SaveTarget.make target.mount (s.folder.drop s.root.length ++ [s.export_] ++ name)).map
    fun target => { target, limit
                    suffix := ""
                    mediaType := (mediaTypes.lookup name).getD "application/octet-stream"
                    expectedRoot := some s.root
                    preferExactName := true
                    strictCounter := true }

def batchWrite (target : SaveTarget) (suffix mediaType : String) (limit : Int)
    (replace : String) : Write :=
  { target, suffix, mediaType, limit
    counter := s.counter
    stem := replace
    expectedRoot := some s.root }

end Saver

def batchStem (stem : String) (batchNum : Nat) : String :=
  stem.replace "%batch_num%" batchNum.repr

namespace Saver

variable (s : Saver)

/-- The next write of a group or a batch, or the end of the save. -/
def select (more : Bool) : Saver :=
  match s.save with
  | .group target names mediaTypes limit =>
    match names[s.taken]? with
    | none => { s with point := .releasing false }
    | some name => match s.member target mediaTypes limit name with
      | .error _ => { s with point := .releasing true }
      | .ok w => { s with taken := s.taken + 1, point := .writing w .entering }
  | .batch target suffix mediaType limit =>
    if more then
      let w := s.batchWrite target suffix mediaType limit (batchStem target.stem s.taken)
      { s with taken := s.taken + 1, point := .writing w .entering }
    else { s with point := .releasing false }
  | _ => { s with point := .releasing false }

def published (publication : Published) (counter : Int) : Saver :=
  let s := { s with publications := s.publications ++ [publication] }
  match s.save with
  | .group _ _ _ _ => { s with point := .selecting }
  | .batch _ _ _ _ => { s with counter := some counter, point := .selecting }
  | _ => { s with point := .releasing false }

def follow (wr : Write) : Next → Saver
  | .stage stage => { s with point := .writing wr stage }
  | .raised => { s with point := .releasing true }
  | .returned publication counter => s.published publication counter

/-- `export.mkdir()` of a group, with what follows where the name is taken. -/
def export_group (w : World) (target : SaveTarget) (counter : Int) : List Effect × Saver :=
  let name := target.stem ++ "_" ++ padded counter
  if contained host s.root s.folder && sameRoot host w target.mount s.root then
    match w.shelf.tree.nodes (place host s.folder name) with
    | some _ => ([],{ s with point := .exporting (counter + 1) })
    | none => ([.tree (.folders [place host s.folder name])],
        { s with export_ := name, point := .selecting })
  else ([],{ s with point := .releasing true })

def next (w : World) : Move → Option (List Effect × Saver) := fun move =>
  match s.point,move with
  | .called,.go =>
    match s.save.validated host with
    | .error _ => some ([],{ s with point := .raised })
    | .ok target =>
      let (made,entered) := writableFolder host w target none
      some ([.tree (.folders made)],match entered with
        | some (root,folder) => { s with root, folder, point := .opening }
        | none => { s with point := .raised })
  | .called,.fail => some ([],{ s with point := .raised })
  | .opening,.go =>
    match w.shelf.tree.nodes (s.lockPath host) with
    | some .directory => some ([],{ s with point := .raised })
    | _ => some ([.tree (.touch (s.lockPath host))],{ s with point := .waiting })
  | .opening,.fail | .waiting,.fail => some ([],{ s with point := .raised })
  | .waiting,.go =>
    if (w.claims (s.lockPath host)).isSome then none
    else some ([.acquire (s.lockPath host)],s.claimed)
  | .counting,.scan seen =>
    match s.save.validated host with
    | .error _ => none
    | .ok target => some ([],s.count host target seen)
  | .exporting counter,.go =>
    match s.save.validated host with
    | .error _ => none
    | .ok target => some (s.export_group host w target counter)
  | .encoding counter,.go =>
    match s.save with
    | .encoded target suffix mediaType limit =>
      let w : Write := { target, suffix, mediaType, limit
                         counter := some counter
                         expectedRoot := some s.root
                         strictCounter := true }
      some ([],{ s with point := .writing w .entering })
    | _ => none
  | .selecting,.go => some ([],s.select true)
  | .selecting,.stop => some ([],s.select false)
  | .exporting _,.fail | .encoding _,.fail | .selecting,.fail =>
    some ([],{ s with point := .releasing true })
  | .writing wr stage,move =>
    (wr.next host w stage move).map fun (effects,following) => (effects,s.follow wr following)
  | .releasing failed,.go =>
    some ([.release (s.lockPath host)],{ s with point := if failed then .raised else .returned })
  | _,_ => none

end Saver

/-- Savers start, take their moves and are killed at any time, and grants change. -/
inductive Event
  | start (saver : Nat) (save : Save)
  | act (saver : Nat) (move : Move)
  | kill (saver : Nat)
  | grant (grants : String → Option Path)

namespace World

variable (w : World)

def apply (i : Nat) (w : World) : Effect → World
  | .tree change => { w with shelf := w.shelf.perform i change }
  | .acquire path => { w with claims := Function.update w.claims path (some i) }
  | .release path => { w with claims := Function.update w.claims path none }
  | .abandon call => { w with abandoned := w.abandoned ++ [call] }

def become (i : Nat) (s : Saver) : World := { w with savers := Function.update w.savers i (some s) }

def open_ (i : Nat) : List Nat :=
  (List.range w.shelf.calls.length).filter fun n =>
    (w.shelf.calls[n]?).any fun c => c.owner == i && c.temp.isSome

def kill (i : Nat) (s : Saver) : World :=
  { w.become i { s with point := .killed } with
    claims := fun path => if w.claims path = some i then none else w.claims path
    abandoned := w.abandoned ++ w.open_ i }

end World

def step (w : World) : Event → Option World
  | .start i save => match w.savers i with
    | some _ => none
    | none => some (w.become i { save })
  | .act i move => (w.savers i).bind fun s =>
    (s.next host w move).map fun (effects,s) => (effects.foldl (World.apply i) w).become i s
  | .kill i => (w.savers i).bind fun s => if s.point.over then none else some (w.kill i s)
  | .grant grants => some { w with grants }

/-- Files and folders before any saver starts: a file is a number, and `none` a folder. -/
structure Files where
  nodes : Path → Option (Option Nat)
  bytes : Nat → List UInt8

def Files.tree (files : Files) : Publication.Tree Path UInt8 := .of files.nodes files.bytes

def begin (files : Files) (grants : String → Option Path) : World :=
  { shelf := ⟨files.tree,[],[]⟩, grants }

end Dinkster.Writer
