import Dinkster.Image.FormatSafety
import Dinkster.Image.RecordEdits

/-! Identifiers over the commands. A command gives out at most one identifier, whose ordinal is the
record's cursor, and no command brings in another: what is given out has not been in the document
before, even where it has been removed since. -/
namespace Dinkster.Image
open Fallible

variable {platform : Platform} {host : Host} {record record' : Record}
variable {identifier : String} {members siblings : List String} {parent : Option String}

def Record.identifiers (record : Record) : List String :=
  record.layers.keys ++ record.masks.keys ++ record.resources.keys

def Command.letter? : Command → Option String
  | .group _ _ => some "l"
  | .addMask _ _ => some "m"
  | _ => none

def Record.gives (record : Record) (command : Command) : Option String :=
  command.letter?.map fun letter => (record.allocate letter).1

structure Alike (record record' : Record) : Prop where
  ordinal : record'.nextOrdinal = record.nextOrdinal
  layers : ∀ d, d ∈ record'.layers.keys ↔ d ∈ record.layers.keys
  masks : ∀ d, d ∈ record'.masks.keys ↔ d ∈ record.masks.keys
  resources : record'.resources = record.resources

theorem Alike.refl (record : Record) : Alike record record :=
  ⟨rfl,fun _ => Iff.rfl,fun _ => Iff.rfl,rfl⟩

theorem Alike.trans {record'' : Record} (alike : Alike record record')
    (alike' : Alike record' record'') : Alike record record'' :=
  ⟨alike'.ordinal.trans alike.ordinal,fun d => (alike'.layers d).trans (alike.layers d),
    fun d => (alike'.masks d).trans (alike.masks d),alike'.resources.trans alike.resources⟩

theorem Alike.identifiers (alike : Alike record record') (d : String) :
    d ∈ record'.identifiers ↔ d ∈ record.identifiers := by
  simp only [Record.identifiers,List.mem_append,alike.layers,alike.masks,alike.resources]

theorem keys_set_held {ν : Type} {d : Dict String ν} {key : String} {v w : ν}
    (held : item d key = .ok v) (k : String) : k ∈ (d.set key w).keys ↔ k ∈ d.keys := by
  rw [Dict.mem_keys_set]
  refine or_iff_right_of_imp ?_
  rintro rfl
  exact (Dict.mem_keys_iff _ _).mpr ⟨v,item_ok.mp held⟩

theorem updateLayer_alike {change : Layer → Layer}
    (done : record.updateLayer identifier change = .ok record') : Alike record record' := by
  obtain ⟨layer,held,same⟩ := bind_ok.mp done
  obtain rfl := Except.ok.inj same
  exact ⟨rfl,keys_set_held held,fun _ => Iff.rfl,rfl⟩

theorem relist_same : record.relist parent siblings = { record with
    rootLayerIds := (record.relist parent siblings).rootLayerIds
    layers := (record.relist parent siblings).layers } := by
  cases parent with
  | none => rfl
  | some group =>
    rw [Record.relist]
    split <;> rfl

theorem relist_alike : Alike record (record.relist parent siblings) := by
  refine ⟨?_,relist_keys,fun d => ?_,?_⟩ <;> rw [relist_same]

theorem number_alike (done : record.number members = .ok record') : Alike record record' :=
  foldlM_keeps (P := Alike record)
    (fun _ _ _ _ alike step => alike.trans (updateLayer_alike step)) (.refl record) done

/-- The cursor moves past what the command gives out, and no other identifier is new. -/
structure Gained (record record' : Record) (given : Option String) : Prop where
  ordinal : record'.nextOrdinal = record.nextOrdinal + if given.isSome then 1 else 0
  only : ∀ d ∈ record'.identifiers, d ∈ record.identifiers ∨ given = some d
  there : ∀ d, given = some d → d ∈ record'.identifiers

theorem Alike.gained (alike : Alike record record') : Gained record record' none :=
  ⟨alike.ordinal,fun d member => .inl ((alike.identifiers d).mp member),nofun⟩

theorem Gained.alike {middle : Record} {given : Option String} (gained : Gained record middle given)
    (alike : Alike middle record') : Gained record record' given :=
  ⟨alike.ordinal.trans gained.ordinal,
    fun d member => gained.only d ((alike.identifiers d).mp member),
    fun d given => (alike.identifiers d).mpr (gained.there d given)⟩

theorem remove_gained (done : record.applyRemove identifier = .ok record') :
    Gained record record' none := by
  obtain ⟨⟨parent,siblings⟩,-,done⟩ := bind_ok.mp done
  have taken := (remove_taken done).1
  have alike : Alike record (record.relist parent (siblings.erase identifier)) := relist_alike
  refine ⟨?_,fun d member => .inl ((alike.identifiers d).mp ?_),nofun⟩
  · rw [taken.same]
    exact alike.ordinal
  · simp only [Record.identifiers,List.mem_append] at member ⊢
    refine member.imp (.imp taken.present fun held => ?_) fun held => ?_
    · obtain ⟨mask,found⟩ := (Dict.mem_keys_iff _ _).mp held
      exact (Dict.mem_keys_iff _ _).mpr ⟨mask,taken.masks d mask found⟩
    · rw [taken.same] at held
      exact held

theorem group_gained {name : Json.Value}
    (done : record.applyGroup host members name = .ok record') :
    Gained record record' (some (record.allocate "l").1) := by
  obtain ⟨-,done⟩ := refuse_then.mp done
  obtain ⟨⟨parent,siblings⟩,-,done⟩ := bind_ok.mp done
  obtain ⟨-,done⟩ := refuse_then.mp done
  obtain ⟨ordered,-,done⟩ := bind_ok.mp done
  refine Gained.alike ?_ (number_alike done)
  refine ⟨relist_alike.ordinal,fun d member => ?_,fun d given => ?_⟩
  · simp only [Record.identifiers,List.mem_append,Dict.mem_keys_set,relist_alike.layers,
      relist_alike.masks,relist_alike.resources] at member ⊢
    rcases member with ((rfl | old) | old) | old
    · exact .inr rfl
    · exact .inl (.inl (.inl old))
    · exact .inl (.inl (.inr old))
    · exact .inl (.inr old)
  · obtain rfl := Option.some.inj given
    simp only [Record.identifiers,List.mem_append,Dict.mem_keys_set]
    exact .inl (.inl (.inl rfl))

theorem addMask_gained {mask : Fields} (done : record.applyAddMask identifier mask = .ok record') :
    Gained record record' (some (record.allocate "m").1) := by
  refine Gained.alike ?_ (updateLayer_alike done)
  refine ⟨rfl,fun d member => ?_,fun d given => ?_⟩
  · simp only [Record.identifiers,List.mem_append,Dict.mem_keys_set] at member ⊢
    rcases member with (old | rfl | old) | old
    · exact .inl (.inl (.inl old))
    · exact .inr rfl
    · exact .inl (.inl (.inr old))
    · exact .inl (.inr old)
  · obtain rfl := Option.some.inj given
    simp only [Record.identifiers,List.mem_append,Dict.mem_keys_set]
    exact .inl (.inr (.inl rfl))

theorem removeMask_gained (done : record.applyRemoveMask identifier = .ok record') :
    Gained record record' none := by
  obtain ⟨mask,-,done⟩ := bind_ok.mp done
  obtain ⟨owner,-,done⟩ := bind_ok.mp done
  obtain ⟨layer,-,done⟩ := bind_ok.mp done
  obtain ⟨-,done⟩ := refuse_then.mp done
  refine Gained.alike ?_ (updateLayer_alike done)
  refine ⟨rfl,fun d member => .inl ?_,nofun⟩
  simp only [Record.identifiers,List.mem_append,Dict.mem_keys_erase] at member ⊢
  tauto

theorem apply_gained {command : Command} (done : host.apply record command = .ok record') :
    Gained record record' (record.gives command) := by
  cases command with
  | canvas changes =>
    obtain rfl := Except.ok.inj done
    exact Alike.gained ⟨rfl,fun _ => Iff.rfl,fun _ => Iff.rfl,rfl⟩
  | remove identifier => exact remove_gained done
  | reorder parent members =>
    obtain ⟨siblings,-,done⟩ := bind_ok.mp done
    obtain ⟨-,done⟩ := refuse_then.mp done
    exact (relist_alike.trans (number_alike done)).gained
  | group members name => exact group_gained done
  | layer identifier changes =>
    obtain ⟨-,done⟩ := refuse_then.mp done
    exact (updateLayer_alike done).gained
  | mask identifier changes =>
    obtain ⟨-,done⟩ := refuse_then.mp done
    obtain ⟨mask,held,same⟩ := bind_ok.mp done
    obtain rfl := Except.ok.inj same
    exact Alike.gained ⟨rfl,fun _ => Iff.rfl,keys_set_held held,rfl⟩
  | transformLayer identifier components =>
    obtain ⟨transform,-,done⟩ := bind_ok.mp done
    exact (updateLayer_alike done).gained
  | transformMask identifier components =>
    obtain ⟨transform,-,done⟩ := bind_ok.mp done
    obtain ⟨mask,held,same⟩ := bind_ok.mp done
    obtain rfl := Except.ok.inj same
    exact Alike.gained ⟨rfl,fun _ => Iff.rfl,keys_set_held held,rfl⟩
  | addMask owner mask => exact addMask_gained done
  | removeMask identifier => exact removeMask_gained done

def letters : List String := ["l","m","r"]

def Record.Below (record : Record) : Prop :=
  ∀ d ∈ record.identifiers, ∀ letter ∈ letters, ∀ n : Nat, d = letter ++ toString n →
    n < record.nextOrdinal

theorem letter_chars {letter : String} (known : letter ∈ letters) (n : Nat) :
    ∃ c, (letter ++ toString n).toList = c :: Nat.toDigits 10 n := by
  have digits : (toString n).toList = Nat.toDigits 10 n := Nat.toList_repr
  rw [String.toList_append,digits]
  simp only [letters,List.mem_cons,List.not_mem_nil,or_false] at known
  rcases known with rfl | rfl | rfl
  · exact ⟨'l',rfl⟩
  · exact ⟨'m',rfl⟩
  · exact ⟨'r',rfl⟩

theorem ordinal_unique {letter letter' : String} (known : letter ∈ letters)
    (known' : letter' ∈ letters) {n m : Nat} (same : letter ++ toString n = letter' ++ toString m) :
    n = m := by
  obtain ⟨c,chars⟩ := letter_chars known n
  obtain ⟨c',chars'⟩ := letter_chars known' m
  rw [same,chars'] at chars
  exact (Json.digits_injective (List.cons.inj chars).2).symm

theorem parseId_plain {letter : String} (known : letter ∈ letters) {n : Nat} {c : Char}
    {coordinate : Coordinate} (parsed : parseId (letter ++ toString n) = some (c,coordinate)) :
    coordinate = ⟨none,n⟩ := by
  obtain ⟨first,chars⟩ := letter_chars known n
  have digit : ∀ d ∈ Nat.toDigits 10 n, d.isDigit = true := fun d member =>
    Nat.isDigit_of_mem_toDigits (by omega) (by omega) member
  rw [parseId,chars] at parsed
  dsimp only at parsed
  rw [List.takeWhile_eq_self_iff.mpr digit,List.dropWhile_eq_nil_iff.mpr digit] at parsed
  split at parsed
  · cases parsed
  · rw [Nat.ofDigitChars_ten_toDigits] at parsed
    exact (Prod.mk.inj (Option.some.inj parsed)).2.symm

theorem gives_letter {command : Command} {d : String} (given : record.gives command = some d) :
    ∃ letter ∈ letters, d = letter ++ toString record.nextOrdinal := by
  obtain ⟨letter,known,rfl⟩ := Option.map_eq_some_iff.mp given
  refine ⟨letter,?_,rfl⟩
  cases command with
  | group | addMask =>
    obtain rfl := Option.some.inj known
    simp [letters]
  | canvas | remove | reorder | layer | mask | transformLayer | transformMask | removeMask =>
    cases known

theorem apply_below {command : Command} (below : record.Below)
    (done : host.apply record command = .ok record') :
    record'.Below ∧ record.nextOrdinal ≤ record'.nextOrdinal := by
  have gained := apply_gained done
  have moved : record.nextOrdinal ≤ record'.nextOrdinal := gained.ordinal ▸ Nat.le_add_right _ _
  refine ⟨fun d member letter known n same => ?_,moved⟩
  rcases gained.only d member with old | new
  · exact (below d old letter known n same).trans_le moved
  · obtain ⟨letter',known',same'⟩ := gives_letter new
    obtain rfl := ordinal_unique known known' (same.symm.trans same')
    rw [gained.ordinal,new]
    exact Nat.lt_succ_self _

theorem run_below {commands : List Command} (below : record.Below)
    (done : host.applyCommands record commands = .ok record') :
    record'.Below ∧ record.nextOrdinal ≤ record'.nextOrdinal :=
  foldlM_keeps (P := fun later => later.Below ∧ record.nextOrdinal ≤ later.nextOrdinal)
    (fun _ _ _ _ held step => by
      obtain ⟨below,moved⟩ := apply_below held.1 step
      exact ⟨below,held.2.trans moved⟩)
    ⟨below,le_rfl⟩ done

theorem run_fresh {first second : List Command} {command : Command} {between before : Record}
    (below : record.Below) (reached : host.applyCommands record first = .ok between)
    (reached' : host.applyCommands between second = .ok before) {d : String}
    (given : before.gives command = some d) : d ∉ between.identifiers := by
  intro member
  obtain ⟨letter,known,same⟩ := gives_letter given
  have here := (run_below below reached).1
  have later := (run_below here reached').2
  exact absurd (here d member letter known _ same) (not_lt.mpr later)

section Accepted

variable {parts : Parts} {document : Document}

theorem gives_below {letter : Char} {keys : List String} {coordinates : List Coordinate}
    (gives : List.Forall₂ (document.allocation.Gives letter) keys coordinates) {d : String}
    (member : d ∈ keys) {name : String} (known : name ∈ letters) {n : Nat}
    (same : d = name ++ toString n) : n < document.allocation.nextOrdinal := by
  obtain ⟨coordinate,-,given⟩ := (partner gives).1 d member
  have parsed := given.parsed
  rw [same] at parsed
  obtain rfl := parseId_plain known parsed
  exact given.below

theorem kept_keys {β γ : Type} {R : String × Json.Value → String × β → Prop} {d : Fields}
    {checked : List (String × β)} (pairs : List.Forall₂ R d.entries checked)
    (same : ∀ e c, R e c → c.1 = e.1) (f : β → γ) {k : String}
    (member : k ∈ (Dict.ofList (checked.map fun e => (e.1,f e.2))).keys) : k ∈ d.keys := by
  obtain ⟨v,found⟩ := (Dict.mem_keys_iff _ _).mp member
  have inside := Dict.mem_entries_of_ofList ((Dict.get?_eq_some_iff _ _ _).mp found)
  obtain ⟨c,inside,equal⟩ := List.mem_map.mp inside
  obtain ⟨e,held,related⟩ := (partner pairs).2 c inside
  obtain ⟨rfl,-⟩ := Prod.mk.inj equal
  exact same _ _ related ▸ List.mem_map_of_mem held

theorem Parts.Structured.below (structured : parts.Structured platform document) :
    (parts.record document).Below := by
  obtain ⟨layers,masks,resources,gives,gives',gives'',-⟩ := structured.identified
  have read := structured.read
  intro d member letter known n same
  simp only [Record.identifiers,List.mem_append] at member
  rcases member with (member | member) | member
  · exact gives_below gives (read.tree_keys ▸ member) known same
  · exact gives_below gives' (kept_keys read.masks (fun _ _ both => both.1) (·.1) member) known same
  · exact gives_below gives''
      (kept_keys read.resources (fun _ _ both => both.1) (·.fields) member) known same

theorem Parts.Structured.valid (structured : parts.Structured platform document) :
    (parts.record document).Valid := by
  refine ⟨structured.rooted,fun identifier v given => ?_,fun taken => ?_⟩
  · obtain ⟨layer,found,given⟩ := Option.bind_eq_some_iff.mp given
    exact structured.read.ranked identifier layer v found given
  · have inside : ((parts.record document).allocate "l").1 ∈ (parts.record document).identifiers :=
      List.mem_append_left _ (List.mem_append_left _ taken)
    exact lt_irrefl _ (structured.below _ inside "l" (by simp [letters]) _ rfl)

end Accepted

theorem validateDocument_ok {value : Json.Value} {checked : Checked} :
    platform.validateDocument value = .ok checked ↔ ∃ document, readDocument value = .ok document ∧
      ∃ parts : Parts, parts.Structured platform document ∧ parts.Paintable platform document ∧
        checked = ⟨parts.record document,Canonical.sortedBy (·.resourceId)
          (parts.resources.filterMap (·.2.dependency))⟩ := by
  rw [Platform.validateDocument,bind_ok]
  exact exists_congr fun document => and_congr_right fun _ => checkDocument_ok

/-- Validation accepts exactly the documents whose members are within their bounds, whose structure
is sound and that can be painted, and over every run of commands from an accepted document what a
command gives out is new to the run. -/
theorem documents_structured :
    (∀ value, (∃ checked, platform.validateDocument value = .ok checked) ↔
      ∃ document, readDocument value = .ok document ∧ ∃ parts : Parts,
        parts.Structured platform document ∧ parts.Paintable platform document) ∧
    (∀ value checked, platform.validateDocument value = .ok checked →
      ∀ (first second : List Command) (command : Command) (between before after : Record),
        platform.applyCommands checked.record first = .ok between →
        platform.applyCommands between second = .ok before →
        platform.apply before command = .ok after →
        ∀ d, before.gives command = some d → d ∉ between.identifiers ∧ d ∈ after.identifiers) := by
  constructor
  · intro value
    constructor
    · rintro ⟨checked,accepted⟩
      obtain ⟨document,read,parts,structured,paintable,-⟩ := validateDocument_ok.mp accepted
      exact ⟨document,read,parts,structured,paintable⟩
    · rintro ⟨document,read,parts,structured,paintable⟩
      exact ⟨_,validateDocument_ok.mpr ⟨document,read,parts,structured,paintable,rfl⟩⟩
  · intro value checked accepted first second command between before after reached reached' done d
      given
    obtain ⟨document,-,parts,structured,-,rfl⟩ := validateDocument_ok.mp accepted
    exact ⟨run_fresh structured.below reached reached' given,(apply_gained done).there d given⟩

def emptyGroup (clipping : String) : Json.Object :=
  [("id",.str "l0"),("kind",.str "group"),("name",.str "Group"),("visible",.bool true),
    ("opacity",.int 65535),("transform",identity),("blendMode",.str "normal"),
    ("clipping",.str clipping),("maskIds",.arr []),("childLayerIds",.arr [])]

def smallCanvas : Json.Object :=
  [("width",.int 1),("height",.int 1),("colorSpace",.str "srgb"),("channelDepth",.int 8),
    ("compositing",.str "premultiplied-alpha")]

def oneGroup (clipping : String) : Json.Value :=
  .obj [("format",.str "dinkster-image"),("formatVersion",.int 2),("lineage",.str "node-document"),
    ("canvas",.obj smallCanvas),("allocation",.obj [("nextOrdinal",.int 1)]),
    ("rootLayerIds",.arr [.str "l0"]),("layers",.obj [("l0",.obj (emptyGroup clipping))]),
    ("masks",.obj []),("resources",.obj [])]

def closedPlatform : Platform :=
  ⟨⟨fun _ => .error .typeError,fun _ => .error .valueError⟩,fun _ => ""⟩

theorem documents_structured_one :
    ∃ checked after, closedPlatform.validateDocument (oneGroup "none") = .ok checked ∧
      closedPlatform.apply checked.record (.group ["l0"] none) = .ok after ∧
      "l1" ∉ checked.record.identifiers ∧ "l1" ∈ after.identifiers := by
  obtain ⟨checked,accepted,after,done,given⟩ : ∃ checked,
      closedPlatform.validateDocument (oneGroup "none") = .ok checked ∧
      ∃ after, closedPlatform.apply checked.record (.group ["l0"] none) = .ok after ∧
        checked.record.gives (.group ["l0"] none) = some "l1" := ⟨_,rfl,_,rfl,rfl⟩
  exact ⟨checked,after,accepted,done,
    documents_structured.2 _ _ accepted [] [] _ _ _ _ rfl rfl done "l1" given⟩

def clippedDocument : Document where
  version := 2
  canvas := .ofList smallCanvas
  allocation := ⟨1,.empty⟩
  roots := ["l0"]
  layers := .ofList [("l0",.obj (emptyGroup "clip-to-previous"))]
  masks := .empty
  resources := .empty

def clippedParts : Parts where
  layers := [("l0",⟨some [],[],.ofList (emptyGroup "clip-to-previous")⟩,none)]
  masks := []
  resources := []

/-- A sound document is refused for its only layer being clipped. -/
theorem clipped_first_refused :
    readDocument (oneGroup "clip-to-previous") = .ok clippedDocument ∧
      clippedParts.Structured closedPlatform clippedDocument ∧
      ∀ checked, closedPlatform.validateDocument (oneGroup "clip-to-previous") ≠ .ok checked := by
  have refused : (closedPlatform.validateDocument (oneGroup "clip-to-previous")).toOption.isSome =
      false := by decide +kernel
  refine ⟨rfl,⟨⟨?_,?_,?_⟩,?_,?_,?_,?_⟩,fun checked accepted => ?_⟩
  · exact .cons ⟨rfl,rfl⟩ .nil
  · exact .nil
  · exact .nil
  · exact ⟨[⟨none,0⟩],[],[],.cons ⟨rfl,by decide,by decide⟩ .nil,.nil,.nil,by simp⟩
  · exact ⟨["l0"],.cons rfl .nil .nil,.refl _⟩
  · have only : clippedParts.tree.entries =
        [("l0",⟨some [],[],.ofList (emptyGroup "clip-to-previous")⟩)] := rfl
    refine ⟨fun layer held found => ?_,nofun⟩
    have inside := (Dict.get?_eq_some_iff _ _ _).mp found
    rw [only] at inside
    obtain ⟨-,rfl⟩ := Prod.mk.inj (List.mem_singleton.mp inside)
    exact ⟨.nil,nofun⟩
  · exact nofun
  · rw [accepted] at refused
    cases refused

end Dinkster.Image
